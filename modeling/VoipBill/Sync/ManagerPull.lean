import Mathlib.Data.List.Sort
import VoipBill.Lib.Run

/-!
# The event queue

`ManagerPull::pull` reads the central event queue, collects record ids in the
pullers of their tables, lets each puller copy its records, and deletes the
events of the puller.  Other sessions insert and re-version events at any time.

The select has no limit, but only `part_size` rows of its result are read, while
the delete goes up to the version of its last row.  `deleted_row_applied` says
what a deletion needs so that it hits rows that were read and applied in the
same iteration: the rows that are not read have greater versions.
-/

namespace VoipBill

open Lib

/-- A row of `event.queue`. -/
structure EventRow where
  serverId : Int
  event : String
  param : String
  version : Int
deriving DecidableEq, Repr

/-- What a puller has to copy. -/
structure BasePull where
  event : String
  key : String
  needPull : Bool := false
  fullPull : Bool := false
  idsToPull : List String := []
deriving DecidableEq

namespace BasePull

def clear (p : BasePull) : BasePull :=
  { p with needPull := false, fullPull := p.key == "", idsToPull := [] }

def addId (p : BasePull) (id : String) : BasePull :=
  let p := { p with needPull := true }
  if p.fullPull then p
  else if id = "0" then { p with fullPull := true }
  else { p with idsToPull := p.idsToPull.insert id }

/-- The state a successful `pull` leaves. -/
def afterPull (p : BasePull) : BasePull :=
  if p.needPull && !p.fullPull then { p with idsToPull := p.idsToPull.erase p.key } else p

/-- A pull copies the record `id`. -/
def Copies (p : BasePull) (id : String) : Prop :=
  p.needPull = true ∧ (p.fullPull = true ∨ id ∈ p.idsToPull)

@[simp] theorem addId_event (p : BasePull) (id : String) : (p.addId id).event = p.event := by
  simp only [addId]
  split
  · rfl
  · split <;> rfl

@[simp] theorem clear_event (p : BasePull) : p.clear.event = p.event := rfl

@[simp] theorem afterPull_event (p : BasePull) : p.afterPull.event = p.event := by
  unfold afterPull
  split <;> rfl

/-- An added record is copied: by its id, or because everything is. -/
theorem copies_addId_self (p : BasePull) {id : String} : (p.addId id).Copies id := by
  simp only [addId, Copies]
  split
  case isTrue hfull => exact ⟨rfl, Or.inl hfull⟩
  case isFalse =>
    split
    · exact ⟨rfl, Or.inl rfl⟩
    · exact ⟨rfl, Or.inr (List.mem_insert_self)⟩

theorem Copies.addId {p : BasePull} {id : String} (h : p.Copies id) (id' : String) :
    (p.addId id').Copies id := by
  obtain ⟨-, hcopies⟩ := h
  simp only [BasePull.addId, Copies]
  split
  case isTrue hfull => exact ⟨rfl, Or.inl hfull⟩
  case isFalse hfull =>
    split
    · exact ⟨rfl, Or.inl rfl⟩
    · exact ⟨rfl, Or.inr (List.mem_insert_of_mem (hcopies.resolve_left hfull))⟩

end BasePull

namespace ManagerPull

def partSize : Nat := 100

/-- Where `pull` is: between iterations, reading row `waiting` of the result,
about to run the next puller, or about to delete the events of one that ran. -/
inductive Phase where
  | idle
  | reading (res : List EventRow) (waiting : Nat)
  | pulling (version : Int) (todo : List String)
  | deleting (version : Int) (event : String) (todo : List String)

/-- The queue, the pullers, and what the current iteration has read and pulled:
`pulled` has each puller as it was when it ran. -/
structure PullSys where
  queue : List EventRow
  pulls : List BasePull
  phase : Phase
  read : List EventRow
  pulled : List BasePull

inductive Act where
  | arrive (queue : List EventRow)
  | select
  | readRow
  | startPulls
  | pullOne (ok : Bool)
  | delete (ok : Bool)
  | finish
  | abort

/-- The puller of an event. -/
def find (pulls : List BasePull) (event : String) : Option BasePull :=
  pulls.find? fun p => p.event = event

section

variable (regions : List Int)

def inRegions (row : EventRow) : Prop := row.serverId ∈ regions

instance (row : EventRow) : Decidable (inRegions regions row) :=
  inferInstanceAs (Decidable (row.serverId ∈ regions))

/-- `order by server_id, version`. -/
def rowLe (a b : EventRow) : Prop :=
  a.serverId < b.serverId ∨ a.serverId = b.serverId ∧ a.version ≤ b.version

instance : DecidableRel rowLe := fun a b =>
  inferInstanceAs (Decidable (a.serverId < b.serverId ∨
    a.serverId = b.serverId ∧ a.version ≤ b.version))

/-- The result of the select. -/
def selectEvents (queue : List EventRow) : List EventRow :=
  (queue.filter fun row => inRegions regions row).insertionSort rowLe

/-- The version `pull` takes from the last row of the result. -/
def lastVersion (res : List EventRow) : Int := (res.getLast?.map EventRow.version).getD 0

/-- Other sessions may leave any queue.  A pull, a delete or a read may fail;
only a failing read ends the iteration. -/
def step (s : PullSys) : Act → Option PullSys
  | .arrive queue => some { s with queue := queue }
  | .select =>
      match s.phase, selectEvents regions s.queue with
      | .idle, row :: rest =>
          some { s with
            pulls := s.pulls.map BasePull.clear
            phase := .reading (row :: rest) 0
            read := []
            pulled := [] }
      | _, _ => none
  | .readRow =>
      match s.phase with
      | .reading res waiting =>
          match res[waiting]? with
          | some row =>
              if partSize ≤ waiting then
                none
              else if (find s.pulls row.event).isSome then
                some { s with
                  pulls := s.pulls.map fun p => if p.event = row.event then p.addId row.param else p
                  phase := .reading res (waiting + 1)
                  read := s.read ++ [row] }
              else
                some { s with
                  queue := s.queue.filter fun r => ¬ (inRegions regions r ∧ r.event = row.event)
                  phase := .reading res (waiting + 1)
                  read := s.read ++ [row] }
          | none => none
      | _ => none
  | .startPulls =>
      match s.phase with
      | .reading res waiting =>
          if res.length ≤ waiting ∨ partSize ≤ waiting then
            some { s with phase := .pulling (lastVersion res) (s.pulls.map BasePull.event) }
          else
            none
      | _ => none
  | .pullOne ok =>
      match s.phase with
      | .pulling version (event :: todo) =>
          if ok then
            some { s with
              pulls := s.pulls.map fun p => if p.event = event then p.afterPull else p
              phase := .deleting version event todo
              pulled := (find s.pulls event).toList ++ s.pulled }
          else
            some { s with phase := .pulling version todo }
      | _ => none
  | .delete ok =>
      match s.phase with
      | .deleting version event todo =>
          some { s with
            queue :=
              if ok then
                s.queue.filter fun r =>
                  ¬ (inRegions regions r ∧ r.event = event ∧ r.version ≤ version)
              else s.queue
            phase := .pulling version todo }
      | _ => none
  | .finish =>
      match s.phase with
      | .pulling _ [] => some { s with phase := .idle }
      | _ => none
  | .abort =>
      match s.phase with
      | .reading _ _ => some { s with phase := .idle }
      | _ => none

/-- Everything a step can do. -/
theorem step_cases {s s' : PullSys} {a : Act} (h : step regions s a = some s') :
    (∃ queue, a = .arrive queue ∧ s' = { s with queue := queue }) ∨
    (a = .select ∧ s.phase = .idle ∧
      s' = { s with
        pulls := s.pulls.map BasePull.clear
        phase := .reading (selectEvents regions s.queue) 0
        read := []
        pulled := [] }) ∨
    (∃ res waiting row, a = .readRow ∧ s.phase = .reading res waiting ∧
      res[waiting]? = some row ∧ waiting < partSize ∧
      (s' = { s with
          pulls := s.pulls.map fun p => if p.event = row.event then p.addId row.param else p
          phase := .reading res (waiting + 1)
          read := s.read ++ [row] } ∨
        find s.pulls row.event = none ∧
        s' = { s with
          queue := s.queue.filter fun r => ¬ (inRegions regions r ∧ r.event = row.event)
          phase := .reading res (waiting + 1)
          read := s.read ++ [row] })) ∨
    (∃ res waiting, a = .startPulls ∧ s.phase = .reading res waiting ∧
      (res.length ≤ waiting ∨ partSize ≤ waiting) ∧
      s' = { s with phase := .pulling (lastVersion res) (s.pulls.map BasePull.event) }) ∨
    (∃ version event todo, s.phase = .pulling version (event :: todo) ∧
      (a = .pullOne true ∧
        s' = { s with
          pulls := s.pulls.map fun p => if p.event = event then p.afterPull else p
          phase := .deleting version event todo
          pulled := (find s.pulls event).toList ++ s.pulled } ∨
        a = .pullOne false ∧ s' = { s with phase := .pulling version todo })) ∨
    (∃ version event todo, s.phase = .deleting version event todo ∧
      (a = .delete true ∧
        s' = { s with
          queue := s.queue.filter fun r =>
            ¬ (inRegions regions r ∧ r.event = event ∧ r.version ≤ version)
          phase := .pulling version todo } ∨
        a = .delete false ∧ s' = { s with phase := .pulling version todo })) ∨
    ((a = .finish ∨ a = .abort) ∧ s' = { s with phase := .idle }) := by
  obtain ⟨queue, pulls, phase, read, pulled⟩ := s
  -- one case per action, each with the phase it needs
  cases a with
  | arrive queue' =>
      rw [step, Option.some.injEq] at h
      exact Or.inl ⟨queue', rfl, h.symm⟩
  | select =>
      right; left
      simp only [step] at h
      split at h
      case h_1 hres =>
        rw [← hres] at h
        exact ⟨rfl, rfl, (Option.some.inj h).symm⟩
      case h_2 => exact absurd h (by simp)
  | readRow =>
      right; right; left
      simp only [step] at h
      split at h
      case h_2 => exact absurd h (by simp)
      case h_1 res waiting =>
        split at h
        case h_2 => exact absurd h (by simp)
        case h_1 row hrow =>
          split at h
          case isTrue => exact absurd h (by simp)
          case isFalse hlt =>
            refine ⟨res, waiting, row, rfl, rfl, hrow, not_le.mp hlt, ?_⟩
            split at h
            case isTrue => exact Or.inl (Option.some.inj h).symm
            case isFalse hunknown =>
              exact Or.inr ⟨Option.not_isSome_iff_eq_none.mp hunknown, (Option.some.inj h).symm⟩
  | startPulls =>
      right; right; right; left
      simp only [step] at h
      split at h
      case h_2 => exact absurd h (by simp)
      case h_1 res waiting =>
        split at h
        case isTrue hend => exact ⟨res, waiting, rfl, rfl, hend, (Option.some.inj h).symm⟩
        case isFalse => exact absurd h (by simp)
  | pullOne ok =>
      right; right; right; right; left
      simp only [step] at h
      split at h
      case h_2 => exact absurd h (by simp)
      case h_1 version event todo =>
        refine ⟨version, event, todo, rfl, ?_⟩
        cases ok with
        | true => exact Or.inl ⟨rfl, (Option.some.inj h).symm⟩
        | false => exact Or.inr ⟨rfl, (Option.some.inj h).symm⟩
  | delete ok =>
      right; right; right; right; right; left
      simp only [step] at h
      split at h
      case h_2 => exact absurd h (by simp)
      case h_1 version event todo =>
        refine ⟨version, event, todo, rfl, ?_⟩
        cases ok with
        | true => exact Or.inl ⟨rfl, (Option.some.inj h).symm⟩
        | false => exact Or.inr ⟨rfl, (Option.some.inj h).symm⟩
  | finish =>
      right; right; right; right; right; right
      simp only [step] at h
      split at h
      case h_2 => exact absurd h (by simp)
      case h_1 => exact ⟨Or.inl rfl, (Option.some.inj h).symm⟩
  | abort =>
      right; right; right; right; right; right
      simp only [step] at h
      split at h
      case h_2 => exact absurd h (by simp)
      case h_1 => exact ⟨Or.inr rfl, (Option.some.inj h).symm⟩

/-- A delete that is still to come in this iteration would hit the row. -/
def Doomed (s : PullSys) (row : EventRow) : Prop :=
  inRegions regions row ∧
    match s.phase with
    | .idle => False
    | .reading res _ => (find s.pulls row.event).isSome ∧ row.version ≤ lastVersion res
    | .pulling version todo => row.event ∈ todo ∧ row.version ≤ version
    | .deleting version event todo =>
        (row.event = event ∨ row.event ∈ todo) ∧ row.version ≤ version

/-- Rows that are selected but not read, and rows that come during the
iteration, are out of reach of its deletes. -/
def PullOk (s : PullSys) : Act → Prop
  | .select =>
      let res := selectEvents regions s.queue
      ∀ row ∈ res.drop partSize, (find s.pulls row.event).isSome → lastVersion res < row.version
  | .arrive queue => ∀ row ∈ queue, row ∉ s.queue → ¬ Doomed regions s row
  | _ => True

end

/-- The puller of the row's event has copied the row's record. -/
def PulledFor (s : PullSys) (row : EventRow) : Prop :=
  ∃ p ∈ s.pulled, p.event = row.event ∧ p.Copies row.param

/-- The row was read in this iteration and its record copied since. -/
def Applied (s : PullSys) (row : EventRow) : Prop := row ∈ s.read ∧ PulledFor s row

/-! ## Pullers -/

theorem find_map {f : BasePull → BasePull} (hf : ∀ p, (f p).event = p.event)
    (pulls : List BasePull) (event : String) :
    find (pulls.map f) event = (find pulls event).map f := by
  simp only [find, List.find?_map]
  congr 2
  funext p
  simp [hf]

theorem event_of_find {pulls : List BasePull} {event : String} {p : BasePull}
    (h : find pulls event = some p) : p.event = event := by
  simpa using List.find?_some h

theorem mem_events_iff {pulls : List BasePull} {event : String} :
    event ∈ pulls.map BasePull.event ↔ (find pulls event).isSome := by
  rw [find, List.find?_isSome]
  simp

/-- Each read row with a puller is collected by it, or was pulled already. -/
def Collected (s : PullSys) : Prop :=
  ∀ row ∈ s.read, ∀ p, find s.pulls row.event = some p →
    p.Copies row.param ∨ PulledFor s row

theorem Collected.readRow {s : PullSys} (h : Collected s) (row : EventRow) (phase : Phase) :
    Collected { s with
      pulls := s.pulls.map fun p => if p.event = row.event then p.addId row.param else p
      phase := phase
      read := s.read ++ [row] } := by
  intro r hr p hp
  have hevent : ∀ p : BasePull,
      (if p.event = row.event then p.addId row.param else p).event = p.event := by
    intro p
    split
    · exact p.addId_event _
    · rfl
  rw [find_map hevent, Option.map_eq_some_iff] at hp
  obtain ⟨q, hq, rfl⟩ := hp
  have hqevent := event_of_find hq
  rw [List.mem_append, List.mem_singleton] at hr
  rcases hr with hr | rfl
  · refine (h r hr q hq).imp (fun hcopies => ?_) id
    split
    · exact hcopies.addId _
    · exact hcopies
  · rw [if_pos hqevent]
    exact Or.inl (q.copies_addId_self)

theorem Collected.pullOne {s : PullSys} (h : Collected s) (event : String) (phase : Phase) :
    Collected { s with
      pulls := s.pulls.map fun p => if p.event = event then p.afterPull else p
      phase := phase
      pulled := (find s.pulls event).toList ++ s.pulled } ∧
    ∀ row ∈ s.read, row.event = event → (find s.pulls row.event).isSome →
      PulledFor { s with
        pulls := s.pulls.map fun p => if p.event = event then p.afterPull else p
        phase := phase
        pulled := (find s.pulls event).toList ++ s.pulled } row := by
  have hevent : ∀ p : BasePull, (if p.event = event then p.afterPull else p).event = p.event := by
    intro p
    split
    · exact p.afterPull_event
    · rfl
  have hkeep : ∀ {row}, PulledFor s row → ∃ p ∈ (find s.pulls event).toList ++ s.pulled,
      p.event = row.event ∧ p.Copies row.param := by
    rintro row ⟨p, hp, hcopies⟩
    exact ⟨p, List.mem_append_right _ hp, hcopies⟩
  have hpulled : ∀ row ∈ s.read, row.event = event → (find s.pulls row.event).isSome →
      ∃ p ∈ (find s.pulls event).toList ++ s.pulled, p.event = row.event ∧ p.Copies row.param := by
    intro row hrow hrowevent hsome
    obtain ⟨q, hq⟩ := Option.isSome_iff_exists.mp hsome
    rcases h row hrow q hq with hcopies | hdone
    · refine ⟨q, List.mem_append_left _ ?_, event_of_find hq, hcopies⟩
      rw [← hrowevent, hq]
      exact List.mem_cons_self
    · exact hkeep hdone
  refine ⟨fun row hrow p hp => ?_, hpulled⟩
  rw [find_map hevent, Option.map_eq_some_iff] at hp
  obtain ⟨q, hq, rfl⟩ := hp
  by_cases hrowevent : row.event = event
  · exact Or.inr (hpulled row hrow hrowevent (by rw [hq]; rfl))
  · rw [if_neg (by rw [event_of_find hq]; exact hrowevent)]
    exact (h row hrow q hq).imp id hkeep

/-! ## The invariant -/

section

variable {regions : List Int} {s : PullSys}

/-- What holds at each position of `pull`. -/
def PhaseInv (s : PullSys) : Phase → Prop
  | .idle => True
  | .reading res waiting => s.read = res.take waiting ∧ waiting ≤ partSize ∧ Collected s
  | .pulling _ _ => Collected s
  | .deleting _ event _ =>
      Collected s ∧
        ∀ row ∈ s.read, row.event = event → (find s.pulls row.event).isSome → PulledFor s row

/-- Rows this iteration reads. -/
def batch (s : PullSys) : List EventRow :=
  match s.phase with
  | .reading res _ => res.take partSize
  | _ => s.read

/-- Rows that a delete of the iteration would hit are rows it reads, and have a
puller. -/
structure Inv (regions : List Int) (s : PullSys) : Prop where
  phase : PhaseInv s s.phase
  doomed : ∀ row ∈ s.queue, Doomed regions s row → row ∈ batch s
  todo : ∀ version todo, s.phase = .pulling version todo →
    ∀ event ∈ todo, (find s.pulls event).isSome
  deleting : ∀ version event todo, s.phase = .deleting version event todo →
    ∀ e ∈ event :: todo, (find s.pulls e).isSome

theorem Inv.arrive (h : Inv regions s) {queue : List EventRow}
    (hok : PullOk regions s (.arrive queue)) : Inv regions { s with queue := queue } where
  phase := h.phase
  doomed := by
    intro row hrow hdoomed
    by_cases hold : row ∈ s.queue
    · exact h.doomed row hold hdoomed
    · exact absurd hdoomed (hok row hrow hold)
  todo := h.todo
  deleting := h.deleting

theorem mem_selectEvents {queue : List EventRow} {row : EventRow} :
    row ∈ selectEvents regions queue ↔ row ∈ queue ∧ inRegions regions row := by
  simp [selectEvents]

theorem Inv.select (hok : PullOk regions s .select) :
    Inv regions { s with
      pulls := s.pulls.map BasePull.clear
      phase := .reading (selectEvents regions s.queue) 0
      read := []
      pulled := [] } where
  phase := ⟨rfl, Nat.zero_le _, by simp [Collected]⟩
  doomed := by
    rintro row hrow ⟨hregion, hpull, hle⟩
    rw [find_map BasePull.clear_event, Option.isSome_map] at hpull
    have hres := mem_selectEvents.mpr ⟨hrow, hregion⟩
    rw [← List.take_append_drop partSize (selectEvents regions s.queue), List.mem_append] at hres
    refine hres.resolve_right fun hdrop => ?_
    exact absurd hle (not_le.mpr (hok row hdrop hpull))
  todo := by simp
  deleting := by simp

theorem Inv.readRow (h : Inv regions s) {res : List EventRow} {waiting : Nat} {row : EventRow}
    (hphase : s.phase = .reading res waiting) (hrow : res[waiting]? = some row)
    (hlt : waiting < partSize) :
    Inv regions { s with
      pulls := s.pulls.map fun p => if p.event = row.event then p.addId row.param else p
      phase := .reading res (waiting + 1)
      read := s.read ++ [row] } := by
  have hinv := h.phase
  rw [hphase] at hinv
  obtain ⟨hread, -, hcollected⟩ := hinv
  have hevent : ∀ p : BasePull,
      (if p.event = row.event then p.addId row.param else p).event = p.event := by
    intro p
    split
    · exact p.addId_event _
    · rfl
  refine ⟨⟨?_, hlt, hcollected.readRow row _⟩, ?_, by simp, by simp⟩
  · rw [hread, List.take_add_one, hrow]
    rfl
  · rintro r hr ⟨hregion, hpull, hle⟩
    simp only [find_map hevent, Option.isSome_map] at hpull
    have := h.doomed r hr ⟨hregion, by rw [hphase]; exact ⟨hpull, hle⟩⟩
    simpa [batch, hphase] using this

/-- Deleting the events of a name without a puller. -/
theorem Inv.deleteUnknown (h : Inv regions s) {res : List EventRow} {waiting : Nat}
    {row : EventRow} (hphase : s.phase = .reading res waiting) (hrow : res[waiting]? = some row)
    (hlt : waiting < partSize) (hunknown : find s.pulls row.event = none)
    (queue : List EventRow) (hqueue : ∀ r ∈ queue, r ∈ s.queue) :
    Inv regions { s with
      queue := queue
      phase := .reading res (waiting + 1)
      read := s.read ++ [row] } := by
  have hinv := h.phase
  rw [hphase] at hinv
  obtain ⟨hread, -, hcollected⟩ := hinv
  refine ⟨⟨?_, hlt, ?_⟩, ?_, by simp, by simp⟩
  · rw [hread, List.take_add_one, hrow]
    rfl
  · intro r hr p hp
    rw [List.mem_append, List.mem_singleton] at hr
    rcases hr with hr | rfl
    · exact hcollected r hr p hp
    · rw [hunknown] at hp
      exact absurd hp (by simp)
  · rintro r hr ⟨hregion, hdoomed⟩
    have := h.doomed r (hqueue r hr) ⟨hregion, by rw [hphase]; exact hdoomed⟩
    simpa [batch, hphase] using this

theorem Inv.startPulls (h : Inv regions s) {res : List EventRow} {waiting : Nat}
    (hphase : s.phase = .reading res waiting)
    (hend : res.length ≤ waiting ∨ partSize ≤ waiting) :
    Inv regions { s with
      phase := .pulling (lastVersion res) (s.pulls.map BasePull.event) } := by
  have hinv := h.phase
  rw [hphase] at hinv
  obtain ⟨hread, hle, hcollected⟩ := hinv
  refine ⟨hcollected, ?_, ?_, by simp⟩
  · rintro row hrow ⟨hregion, hevent, hversion⟩
    have hbatch := h.doomed row hrow ⟨hregion, by
      rw [hphase]
      exact ⟨mem_events_iff.mp hevent, hversion⟩⟩
    simp only [batch, hphase] at hbatch ⊢
    rw [hread]
    -- all rows up to the size of a part are read
    rcases hend with hall | hpart
    · rw [List.take_of_length_le hall]
      exact List.mem_of_mem_take hbatch
    · rwa [le_antisymm hle hpart]
  · rintro version todo htodo event hevent
    simp only [Phase.pulling.injEq] at htodo
    obtain ⟨-, rfl⟩ := htodo
    exact mem_events_iff.mp hevent

theorem Inv.pullOne (h : Inv regions s) {version : Int} {event : String} {todo : List String}
    (hphase : s.phase = .pulling version (event :: todo)) :
    Inv regions { s with
      pulls := s.pulls.map fun p => if p.event = event then p.afterPull else p
      phase := .deleting version event todo
      pulled := (find s.pulls event).toList ++ s.pulled } := by
  have hinv := h.phase
  rw [hphase] at hinv
  have hevent : ∀ p : BasePull, (if p.event = event then p.afterPull else p).event = p.event := by
    intro p
    split
    · exact p.afterPull_event
    · rfl
  obtain ⟨hcollected, hpulled⟩ := Collected.pullOne hinv event (.deleting version event todo)
  refine ⟨⟨hcollected, ?_⟩, ?_, by simp, ?_⟩
  · intro row hrow hrowevent hsome
    simp only [find_map hevent, Option.isSome_map] at hsome
    exact hpulled row hrow hrowevent hsome
  · rintro row hrow ⟨hregion, hrowevent, hversion⟩
    have := h.doomed row hrow ⟨hregion, by
      rw [hphase]
      exact ⟨List.mem_cons.mpr hrowevent, hversion⟩⟩
    simpa [batch, hphase] using this
  · rintro version' event' todo' hdeleting e he
    simp only [Phase.deleting.injEq] at hdeleting
    obtain ⟨-, rfl, rfl⟩ := hdeleting
    rw [find_map hevent, Option.isSome_map]
    exact h.todo version _ hphase e he

/-- Going on to the next puller. -/
theorem Inv.next (h : Inv regions s) {version : Int} {event : String} {todo : List String}
    (hphase : s.phase = .pulling version (event :: todo) ∨ s.phase = .deleting version event todo)
    (queue : List EventRow) (hqueue : ∀ r ∈ queue, r ∈ s.queue) :
    Inv regions { s with queue := queue, phase := .pulling version todo } := by
  have hinv := h.phase
  refine ⟨?_, ?_, ?_, by simp⟩
  · rcases hphase with hphase | hphase
    · rw [hphase] at hinv
      exact hinv
    · rw [hphase] at hinv
      exact hinv.1
  · rintro row hrow ⟨hregion, hevent, hversion⟩
    have hdoomed : Doomed regions s row := by
      refine ⟨hregion, ?_⟩
      rcases hphase with hphase | hphase
      · rw [hphase]
        exact ⟨List.mem_cons_of_mem _ hevent, hversion⟩
      · rw [hphase]
        exact ⟨Or.inr hevent, hversion⟩
    have := h.doomed row (hqueue row hrow) hdoomed
    rcases hphase with hphase | hphase
    · simpa [batch, hphase] using this
    · simpa [batch, hphase] using this
  · rintro version' todo' hpulling e he
    simp only [Phase.pulling.injEq] at hpulling
    obtain ⟨-, rfl⟩ := hpulling
    rcases hphase with hphase | hphase
    · exact h.todo version _ hphase e (List.mem_cons_of_mem _ he)
    · exact h.deleting version event todo hphase e (List.mem_cons_of_mem _ he)

theorem Inv.idle (s : PullSys) : Inv regions { s with phase := .idle } where
  phase := trivial
  doomed := fun _ _ h => h.2.elim
  todo := by simp
  deleting := by simp

/-! ## Steps and runs -/

theorem step_inv {s' : PullSys} {a : Act} (h : Inv regions s) (hok : PullOk regions s a)
    (hs : step regions s a = some s') : Inv regions s' := by
  obtain ⟨queue, rfl, rfl⟩ | ⟨rfl, -, rfl⟩ | ⟨res, waiting, row, -, hphase, hrow, hlt, hread⟩ |
    ⟨res, waiting, -, hphase, hend, rfl⟩ | ⟨version, event, todo, hphase, hpull⟩ |
    ⟨version, event, todo, hphase, hdelete⟩ | ⟨-, rfl⟩ := step_cases regions hs
  · exact h.arrive hok
  · exact Inv.select hok
  · rcases hread with rfl | ⟨hunknown, rfl⟩
    · exact h.readRow hphase hrow hlt
    · exact h.deleteUnknown hphase hrow hlt hunknown _ fun r hr => (List.mem_filter.mp hr).1
  · exact h.startPulls hphase hend
  · rcases hpull with ⟨-, rfl⟩ | ⟨-, rfl⟩
    · exact h.pullOne hphase
    · exact h.next (Or.inl hphase) s.queue fun _ hr => hr
  · rcases hdelete with ⟨-, rfl⟩ | ⟨-, rfl⟩
    · exact h.next (Or.inr hphase) _ fun r hr => (List.mem_filter.mp hr).1
    · exact h.next (Or.inr hphase) s.queue fun _ hr => hr
  · exact Inv.idle s

theorem of_not_mem_filter_not {rows : List EventRow} {row : EventRow} {p : EventRow → Prop}
    [DecidablePred p] (hrow : row ∈ rows) (hgone : row ∉ rows.filter fun r => ¬ p r) : p row := by
  by_contra hne
  exact hgone (List.mem_filter.mpr ⟨hrow, by simpa using hne⟩)

/-- Where rows leave the queue: events without a puller while reading, and the
events of a puller that ran, up to the version. -/
theorem step_deletes {s' : PullSys} {a : Act} (hs : step regions s a = some s')
    (ha : ∀ queue, a ≠ .arrive queue) {row : EventRow} (hrow : row ∈ s.queue)
    (hgone : row ∉ s'.queue) :
    find s.pulls row.event = none ∨
      ∃ version todo, s.phase = .deleting version row.event todo ∧ inRegions regions row ∧
        row.version ≤ version := by
  obtain ⟨queue, rfl, rfl⟩ | ⟨rfl, -, rfl⟩ | ⟨res, waiting, read, -, -, -, -, hread⟩ |
    ⟨res, waiting, -, -, -, rfl⟩ | ⟨version, event, todo, -, hpull⟩ |
    ⟨version, event, todo, hphase, hdelete⟩ | ⟨-, rfl⟩ := step_cases regions hs
  · exact absurd rfl (ha queue)
  · exact absurd hrow hgone
  · rcases hread with rfl | ⟨hunknown, rfl⟩
    · exact absurd hrow hgone
    · have hevent := of_not_mem_filter_not hrow hgone
      exact Or.inl (hevent.2 ▸ hunknown)
  · exact absurd hrow hgone
  · rcases hpull with ⟨-, rfl⟩ | ⟨-, rfl⟩
    · exact absurd hrow hgone
    · exact absurd hrow hgone
  · rcases hdelete with ⟨-, rfl⟩ | ⟨-, rfl⟩
    · obtain ⟨hregion, rfl, hle⟩ := of_not_mem_filter_not hrow hgone
      exact Or.inr ⟨version, todo, hphase, hregion, hle⟩
    · exact absurd hrow hgone
  · exact absurd hrow hgone

/-- **No unapplied event is deleted.**  In every run whose selects and arrivals
meet `PullOk`, a row that `pull` deletes has no puller, or was read in the same
iteration and its record was copied since. -/
theorem deleted_row_applied {t u : PullSys} {as : List Act} {a : Act} (hs : s.phase = .idle)
    (hok : Meets (step regions) (PullOk regions) s as) (hrun : run (step regions) s as = some t)
    (hstep : step regions t a = some u) (ha : ∀ queue, a ≠ .arrive queue) {row : EventRow}
    (hrow : row ∈ t.queue) (hgone : row ∉ u.queue) :
    find t.pulls row.event = none ∨ Applied t row := by
  have hinit : Inv regions s := by
    obtain ⟨queue, pulls, phase, read, pulled⟩ := s
    simp only at hs
    subst hs
    exact Inv.idle ⟨queue, pulls, .idle, read, pulled⟩
  have hinv : Inv regions t :=
    run_invariant_of_meets (fun _ _ _ h hok hstep => step_inv h hok hstep) hinit hok hrun
  refine (step_deletes hstep ha hrow hgone).imp id ?_
  rintro ⟨version, todo, hphase, hregion, hle⟩
  have hread := hinv.doomed row hrow ⟨hregion, by rw [hphase]; exact ⟨Or.inl rfl, hle⟩⟩
  simp only [batch, hphase] at hread
  have hpulled := hinv.phase
  rw [hphase] at hpulled
  exact ⟨hread, hpulled.2 row hread rfl
    (hinv.deleting version row.event todo hphase _ List.mem_cons_self)⟩

end

/-- Events of `n` clients in region 99. -/
def clientEvents (n : Nat) : List EventRow :=
  (List.range n).map fun i =>
    { serverId := 99, event := "client", param := toString (i + 1), version := i + 1 }

/-- A queue before `pull`, with the puller of clients. -/
def start (n : Nat) : PullSys :=
  { queue := clientEvents n
    pulls := [{ event := "client", key := "id" }]
    phase := .idle
    read := []
    pulled := [] }

/-- One iteration up to its delete. -/
def upToDelete (n : Nat) : List Act :=
  .select :: List.replicate n .readRow ++ [.startPulls, .pullOne true]

/-- With two events both are applied before they are deleted. -/
theorem deleted_row_applied_of_two :
    ∃ t u, run (step [99]) (start 2) (upToDelete 2) = some t ∧
      step [99] t (.delete true) = some u ∧ t.queue ≠ [] ∧ u.queue = [] ∧
      ∀ row ∈ t.queue, find t.pulls row.event = none ∨ Applied t row := by
  have hend : ((run (step [99]) (start 2) (upToDelete 2)).bind fun t =>
      (step [99] t (.delete true)).map fun u => (t.queue.length, u.queue)) = some (2, []) := by
    decide +kernel
  obtain ⟨t, hrun, ht⟩ := Option.bind_eq_some_iff.mp hend
  obtain ⟨u, hstep, hu⟩ := Option.map_eq_some_iff.mp ht
  rw [Prod.mk.injEq] at hu
  have hok : Meets (step [99]) (PullOk [99]) (start 2) (upToDelete 2) := by
    refine ⟨?_, fun s _ => meets_of_forall (by simp [PullOk]) s⟩
    have hall : ∀ row ∈ (selectEvents [99] (start 2).queue).drop partSize, False := by
      decide +kernel
    exact fun row hrow => (hall row hrow).elim
  refine ⟨t, u, hrun, hstep, List.ne_nil_of_length_pos (by omega), hu.2, fun row hrow => ?_⟩
  exact deleted_row_applied rfl hok hrun hstep (by simp) hrow (by simp [hu.2])

/-- With 101 events the last one is deleted although it was not read. -/
theorem deleted_row_not_applied_of_101 :
    ∃ t u row, run (step [99]) (start 101) (upToDelete 100) = some t ∧
      step [99] t (.delete true) = some u ∧ row ∈ t.queue ∧ row ∉ u.queue ∧
      ¬ (find t.pulls row.event = none ∨ Applied t row) := by
  have hend : ((run (step [99]) (start 101) (upToDelete 100)).bind fun t =>
      (step [99] t (.delete true)).map fun u =>
        (t.queue.any (fun row => decide (row ∉ u.queue) && (find t.pulls row.event).isSome &&
          decide (row ∉ t.read)))) = some true := by
    decide +kernel
  obtain ⟨t, hrun, ht⟩ := Option.bind_eq_some_iff.mp hend
  obtain ⟨u, hstep, hu⟩ := Option.map_eq_some_iff.mp ht
  obtain ⟨row, hrow, hcond⟩ := List.any_eq_true.mp hu
  simp only [Bool.and_eq_true, decide_eq_true_eq] at hcond
  obtain ⟨⟨hgone, hpull⟩, hread⟩ := hcond
  refine ⟨t, u, row, hrun, hstep, hrow, hgone, ?_⟩
  rintro (hnone | happlied)
  · rw [hnone] at hpull
    exact absurd hpull (by simp)
  · exact hread happlied.1

end ManagerPull
end VoipBill
