import Mathlib.Tactic
import VoipBill.Lib.Run

/-!
# Caches refreshed by notices

Tables change at any time.  Every change puts a notice under the name of the table
into a queue, in place of the one that is there, with a stamp above all stamps given
before.  Caches are loaded from tables: a worker reads the notices, reloads the
caches of each, and then removes the notice if it still has the stamp that was read.
Before that it clears the queue and loads all caches; both may fail at any step.

A notice says that caches may be out of date, so that the following is to be shown:
where there is no notice for a table, every cache has the table as it is.

* `Served`: this property;
* `Inv`: what holds in the course of a reload, in two parts: what has been read or
  loaded is as good as the notices say, and the caches reloaded for the notice at
  hand are good if the notice still has its stamp;
* `served_of_run`: once the caches have been loaded, `Served` holds in every state.
-/

namespace VoipBill
namespace Lib
namespace Refresh

variable {τ ι ν δ : Type}

/-- Which tables a cache is loaded from, the name of the notices of a table, the
caches reloaded for a notice, and the caches loaded in the beginning.  No cache is
forgotten. -/
structure Plan (τ ι ν : Type) where
  sources : ι → List τ
  name : τ → ν
  caches : ν → List ι
  all : List ι
  covers : ∀ l, ∀ table ∈ sources l, l ∈ caches (name table)
  complete : ∀ l, l ∈ all

/-- What the worker is doing.  A load is two steps: the tables are read, as they are
at one time, and then the cache is exchanged. -/
inductive Phase (τ ι ν δ : Type) where
  | cold
  | filling (todo : List ι) (found : Option (τ → δ))
  | idle
  | fetching (rows : List (ν × Int))
  | reloading (row : ν × Int) (rows : List (ν × Int)) (todo : List ι) (found : Option (τ → δ))

/-- The caches have been loaded once. -/
def Phase.isWarm : Phase τ ι ν δ → Bool
  | .cold => false
  | .filling _ _ => false
  | _ => true

/-- The tables, the notices, the greatest stamp so far, and the caches with the
tables as they were when they were loaded. -/
structure State (τ ι ν δ : Type) where
  content : τ → δ
  queue : List (ν × Int) := []
  stamp : Int := 0
  cache : ι → Option (τ → δ) := fun _ => none
  phase : Phase τ ι ν δ := .cold

inductive Act (τ ν δ : Type) where
  | change (table : τ) (data : δ) (stamp : Int)
  | announce (name : ν) (stamp : Int)
  | clear
  | read
  | swap
  | filled
  | select (rows : List (ν × Int))
  | fetch
  | remove
  | fail

/-- Put a notice in place of the one under the same name. -/
def put [DecidableEq ν] (queue : List (ν × Int)) (name : ν) (stamp : Int) : List (ν × Int) :=
  (name, stamp) :: queue.filter fun row => row.1 ≠ name

def step [DecidableEq τ] [DecidableEq ι] [DecidableEq ν] (plan : Plan τ ι ν)
    (s : State τ ι ν δ) : Act τ ν δ → Option (State τ ι ν δ)
  | .change table data stamp =>
      if s.stamp < stamp then
        some { s with
          content := Function.update s.content table data
          queue := put s.queue (plan.name table) stamp
          stamp := stamp }
      else
        none
  | .announce name stamp =>
      if s.stamp < stamp then
        some { s with queue := put s.queue name stamp, stamp := stamp }
      else
        none
  | .clear =>
      match s.phase with
      | .cold => some { s with queue := [], phase := .filling plan.all none }
      | _ => none
  | .read =>
      match s.phase with
      | .filling (l :: todo) none =>
          some { s with phase := .filling (l :: todo) (some s.content) }
      | .reloading row rows (l :: todo) none =>
          some { s with phase := .reloading row rows (l :: todo) (some s.content) }
      | _ => none
  | .swap =>
      match s.phase with
      | .filling (l :: todo) (some found) =>
          some { s with
            cache := Function.update s.cache l (some found)
            phase := .filling todo none }
      | .reloading row rows (l :: todo) (some found) =>
          some { s with
            cache := Function.update s.cache l (some found)
            phase := .reloading row rows todo none }
      | _ => none
  | .filled =>
      match s.phase with
      | .filling [] none => some { s with phase := .idle }
      | _ => none
  | .select rows =>
      match s.phase with
      | .idle => if rows.Perm s.queue then some { s with phase := .fetching rows } else none
      | _ => none
  | .fetch =>
      match s.phase with
      | .fetching (row :: rows) =>
          some { s with phase := .reloading row rows (plan.caches row.1) none }
      | .fetching [] => some { s with phase := .idle }
      | _ => none
  | .remove =>
      match s.phase with
      | .reloading row rows [] none =>
          some { s with queue := s.queue.filter fun r => r ≠ row, phase := .fetching rows }
      | _ => none
  | .fail =>
      match s.phase with
      | .filling _ _ => some { s with phase := .cold }
      | .fetching _ => some { s with phase := .idle }
      | .reloading _ _ _ _ => some { s with phase := .idle }
      | _ => none

/-! ## What the caches have -/

/-- There is no notice under the name. -/
def Quiet (s : State τ ι ν δ) (name : ν) : Prop := ∀ row ∈ s.queue, row.1 ≠ name

/-- The cache has the table as it is. -/
def Current (s : State τ ι ν δ) (l : ι) (table : τ) : Prop :=
  ∃ found, s.cache l = some found ∧ found table = s.content table

/-- Tables without a notice are as they are in all caches loaded from them. -/
def Served (plan : Plan τ ι ν) (s : State τ ι ν δ) : Prop :=
  ∀ l table, table ∈ plan.sources l → Quiet s (plan.name table) → Current s l table

/-- Tables without a notice are as they were read. -/
def ReadWell (plan : Plan τ ι ν) (s : State τ ι ν δ) (found : Option (τ → δ)) : Prop :=
  ∀ f, found = some f → ∀ table, Quiet s (plan.name table) → f table = s.content table

/-- While the notice has its stamp, the tables under its name are as they were read. -/
def ReadFor (plan : Plan τ ι ν) (s : State τ ι ν δ) (row : ν × Int) (found : Option (τ → δ)) :
    Prop :=
  row ∈ s.queue → ∀ f, found = some f → ∀ table, plan.name table = row.1 →
    f table = s.content table

/-- While the notice has its stamp, its caches but those still to be loaded have the
tables under its name as they are. -/
def ReloadedFor (plan : Plan τ ι ν) (s : State τ ι ν δ) (row : ν × Int) (todo : List ι) : Prop :=
  row ∈ s.queue → ∀ l ∈ plan.caches row.1, l ∉ todo → ∀ table ∈ plan.sources l,
    plan.name table = row.1 → Current s l table

/-- What holds in a phase. -/
def PhaseInv (plan : Plan τ ι ν) (s : State τ ι ν δ) : Phase τ ι ν δ → Prop
  | .cold => True
  | .filling todo found =>
      (∀ l ∈ plan.all, l ∉ todo → ∀ table ∈ plan.sources l, Quiet s (plan.name table) →
        Current s l table) ∧ ReadWell plan s found
  | .idle => Served plan s
  | .fetching rows => Served plan s ∧ ∀ row ∈ rows, row.2 ≤ s.stamp
  | .reloading row rows todo found =>
      Served plan s ∧ (∀ r ∈ row :: rows, r.2 ≤ s.stamp) ∧ ReadWell plan s found ∧
        ReadFor plan s row found ∧ ReloadedFor plan s row todo

structure Inv (plan : Plan τ ι ν) (s : State τ ι ν δ) : Prop where
  stamped : ∀ row ∈ s.queue, row.2 ≤ s.stamp
  single : ∀ row ∈ s.queue, ∀ row' ∈ s.queue, row.1 = row'.1 → row = row'
  phase : PhaseInv plan s s.phase

/-! ## Notices -/

section Notices

variable {plan : Plan τ ι ν} {s : State τ ι ν δ} {name : ν} {stamp : Int} {content : τ → δ}
  [DecidableEq ν]

/-- The state after a change of tables under a name. -/
def noticed (s : State τ ι ν δ) (content : τ → δ) (name : ν) (stamp : Int) : State τ ι ν δ :=
  { s with content := content, queue := put s.queue name stamp, stamp := stamp }

theorem mem_put_iff {queue : List (ν × Int)} {row : ν × Int} :
    row ∈ put queue name stamp ↔ row = (name, stamp) ∨ row ∈ queue ∧ row.1 ≠ name := by
  simp [put]

theorem quiet_of_noticed {name' : ν} (h : Quiet (noticed s content name stamp) name') :
    name' ≠ name ∧ Quiet s name' := by
  have hne : name' ≠ name := fun heq => h (name, stamp) (mem_put_iff.mpr (.inl rfl)) heq.symm
  refine ⟨hne, fun row hrow heq => ?_⟩
  exact h row (mem_put_iff.mpr (.inr ⟨hrow, heq ▸ hne⟩)) heq

/-- An older notice that is still there is under another name. -/
theorem mem_of_noticed {row : ν × Int} (hold : row.2 ≤ s.stamp) (hnew : s.stamp < stamp)
    (h : row ∈ (noticed s content name stamp).queue) : row ∈ s.queue ∧ row.1 ≠ name := by
  rcases mem_put_iff.mp h with rfl | hrow
  · exact absurd hold (not_le.mpr hnew)
  · exact hrow

/-- Only tables under the name of the notice have changed. -/
theorem inv_noticed (h : Inv plan s) (hnew : s.stamp < stamp)
    (hsame : ∀ table, plan.name table ≠ name → content table = s.content table) :
    Inv plan (noticed s content name stamp) := by
  have hcurrent : ∀ {l table}, plan.name table ≠ name → Current s l table →
      Current (noticed s content name stamp) l table := by
    rintro l table hne ⟨found, hcache, hfound⟩
    exact ⟨found, hcache, hfound.trans (hsame table hne).symm⟩
  have hserved : Served plan s → Served plan (noticed s content name stamp) := by
    intro hserved l table hsource hquiet
    obtain ⟨hne, hquiet'⟩ := quiet_of_noticed hquiet
    exact hcurrent hne (hserved l table hsource hquiet')
  -- what was read stays right for tables without a notice
  have hread : ∀ {found}, ReadWell plan s found →
      ReadWell plan (noticed s content name stamp) found := by
    intro found hread f hf table hquiet
    obtain ⟨hne, hquiet'⟩ := quiet_of_noticed hquiet
    exact (hread f hf table hquiet').trans (hsame table hne).symm
  constructor
  · intro row hrow
    rcases mem_put_iff.mp hrow with rfl | ⟨hmem, -⟩
    · exact le_refl stamp
    · exact (h.stamped row hmem).trans hnew.le
  · intro row hrow row' hrow' heq
    rcases mem_put_iff.mp hrow with rfl | ⟨hmem, hne⟩
    · rcases mem_put_iff.mp hrow' with rfl | ⟨-, hne'⟩
      · rfl
      · exact absurd heq.symm hne'
    · rcases mem_put_iff.mp hrow' with rfl | ⟨hmem', -⟩
      · exact absurd heq hne
      · exact h.single row hmem row' hmem' heq
  · have hphase := h.phase
    show PhaseInv plan (noticed s content name stamp) s.phase
    cases hcase : s.phase with
    | cold => trivial
    | idle =>
        rw [hcase] at hphase
        exact hserved hphase
    | filling todo found =>
        rw [hcase] at hphase
        refine ⟨fun l hl htodo table hsource hquiet => ?_, hread hphase.2⟩
        obtain ⟨hne, hquiet'⟩ := quiet_of_noticed hquiet
        exact hcurrent hne (hphase.1 l hl htodo table hsource hquiet')
    | fetching rows =>
        rw [hcase] at hphase
        exact ⟨hserved hphase.1, fun row hrow => (hphase.2 row hrow).trans hnew.le⟩
    | reloading row rows todo found =>
        rw [hcase] at hphase
        obtain ⟨hs, hstamps, hwell, hfor, hreloaded⟩ := hphase
        have hold : row.2 ≤ s.stamp := hstamps row List.mem_cons_self
        refine ⟨hserved hs, fun r hr => (hstamps r hr).trans hnew.le, hread hwell, ?_, ?_⟩
        · intro hmem f hf table hname
          obtain ⟨hmem', hne⟩ := mem_of_noticed hold hnew hmem
          exact (hfor hmem' f hf table hname).trans (hsame table (hname ▸ hne)).symm
        · intro hmem l hl htodo table hsource hname
          obtain ⟨hmem', hne⟩ := mem_of_noticed hold hnew hmem
          exact hcurrent (hname ▸ hne) (hreloaded hmem' l hl htodo table hsource hname)

end Notices

/-! ## The worker -/

section Worker

variable {plan : Plan τ ι ν} {s : State τ ι ν δ}

/-- Only the phase changes. -/
theorem Inv.toPhase (h : Inv plan s) {phase : Phase τ ι ν δ} (hphase : PhaseInv plan s phase) :
    Inv plan { s with phase := phase } := by
  refine ⟨h.stamped, h.single, ?_⟩
  cases phase with
  | cold => trivial
  | filling todo found => exact hphase
  | idle => exact hphase
  | fetching rows => exact hphase
  | reloading row rows todo found => exact hphase

/-- An exchanged cache has the tables as they were read, the others are as they
were. -/
theorem current_swapped [DecidableEq ι] {l l' : ι} {found : τ → δ} {table : τ}
    {phase : Phase τ ι ν δ} (hfound : l' = l → found table = s.content table)
    (hother : l' ≠ l → Current s l' table) :
    Current { s with cache := Function.update s.cache l (some found), phase := phase } l'
      table := by
  by_cases heq : l' = l
  · subst heq
    exact ⟨found, Function.update_self .., hfound rfl⟩
  · obtain ⟨found', hcache, hfound'⟩ := hother heq
    exact ⟨found', (Function.update_of_ne heq ..).trans hcache, hfound'⟩

theorem served_swapped [DecidableEq ι] {l : ι} {found : τ → δ} {phase : Phase τ ι ν δ}
    (hserved : Served plan s) (hread : ReadWell plan s (some found)) :
    Served plan { s with cache := Function.update s.cache l (some found), phase := phase } :=
  fun l' table hsource hquiet =>
    current_swapped (fun _ => hread found rfl table hquiet)
      fun _ => hserved l' table hsource hquiet

theorem inv_swap_filling [DecidableEq ι] {l : ι} {todo : List ι} {found : τ → δ}
    (h : Inv plan s) (hphase : s.phase = .filling (l :: todo) (some found)) :
    Inv plan { s with
      cache := Function.update s.cache l (some found), phase := .filling todo none } := by
  have hinv := h.phase
  rw [hphase] at hinv
  refine ⟨h.stamped, h.single, fun l' hl' htodo table hsource hquiet => ?_, fun f hf => ?_⟩
  · refine current_swapped (fun _ => hinv.2 found rfl table hquiet) fun hne => ?_
    exact hinv.1 l' hl' (List.not_mem_cons_of_ne_of_not_mem hne htodo) table hsource hquiet
  · exact absurd hf (by simp)

theorem inv_swap_reloading [DecidableEq ι] {row : ν × Int} {rows : List (ν × Int)} {l : ι}
    {todo : List ι} {found : τ → δ} (h : Inv plan s)
    (hphase : s.phase = .reloading row rows (l :: todo) (some found)) :
    Inv plan { s with
      cache := Function.update s.cache l (some found)
      phase := .reloading row rows todo none } := by
  have hinv := h.phase
  rw [hphase] at hinv
  obtain ⟨hserved, hstamps, hwell, hfor, hreloaded⟩ := hinv
  refine ⟨h.stamped, h.single, served_swapped hserved hwell, hstamps, ?_, ?_, ?_⟩
  · exact fun f hf => absurd hf (by simp)
  · exact fun _ f hf => absurd hf (by simp)
  · intro hmem l' hl' htodo table hsource hname
    refine current_swapped (fun _ => hfor hmem found rfl table hname) fun hne => ?_
    exact hreloaded hmem l' hl' (List.not_mem_cons_of_ne_of_not_mem hne htodo) table hsource hname

/-- The notice that is removed, if it still is there, is the only one under its name,
and its caches have been reloaded. -/
theorem inv_remove [DecidableEq ν] {row : ν × Int} {rows : List (ν × Int)} (h : Inv plan s)
    (hphase : s.phase = .reloading row rows [] none) :
    Inv plan { s with queue := s.queue.filter fun r => r ≠ row, phase := .fetching rows } := by
  have hinv := h.phase
  rw [hphase] at hinv
  obtain ⟨hserved, hstamps, -, -, hreloaded⟩ := hinv
  refine ⟨fun r hr => h.stamped r (List.mem_of_mem_filter hr),
    fun r hr r' hr' => h.single r (List.mem_of_mem_filter hr) r' (List.mem_of_mem_filter hr'),
    fun l table hsource hquiet => ?_, fun r hr => hstamps r (List.mem_cons_of_mem row hr)⟩
  by_cases hbefore : Quiet s (plan.name table)
  · exact hserved l table hsource hbefore
  · -- the only notice of the table is the removed one
    obtain ⟨r, hr, hname⟩ : ∃ r ∈ s.queue, r.1 = plan.name table := by
      simpa only [Quiet, not_forall, not_not, exists_prop] using hbefore
    have hrow : r = row := by
      by_contra hne
      exact hquiet r (List.mem_filter.mpr ⟨hr, by simpa using hne⟩) hname
    subst hrow
    have hcaches : l ∈ plan.caches r.1 := hname ▸ plan.covers l table hsource
    exact hreloaded hr l hcaches (by simp) table hsource hname.symm

theorem served_of_inv {s : State τ ι ν δ} (h : Inv plan s) (hwarm : s.phase.isWarm = true) :
    Served plan s := by
  have hphase := h.phase
  cases hcase : s.phase with
  | cold =>
      rw [hcase] at hwarm
      exact absurd hwarm (by simp [Phase.isWarm])
  | filling todo found =>
      rw [hcase] at hwarm
      exact absurd hwarm (by simp [Phase.isWarm])
  | idle =>
      rw [hcase] at hphase
      exact hphase
  | fetching rows =>
      rw [hcase] at hphase
      exact hphase.1
  | reloading row rows todo found =>
      rw [hcase] at hphase
      exact hphase.1

end Worker

/-! ## Runs -/

section Runs

variable [DecidableEq τ] [DecidableEq ι] [DecidableEq ν] {plan : Plan τ ι ν}

theorem inv_step (s : State τ ι ν δ) (a : Act τ ν δ) (s' : State τ ι ν δ) (h : Inv plan s)
    (hstep : step plan s a = some s') : Inv plan s' := by
  have hphase := h.phase
  cases a with
  | change table data stamp =>
      simp only [step] at hstep
      split at hstep
      case isTrue hnew =>
        cases hstep
        refine inv_noticed h hnew fun table' hne => Function.update_of_ne ?_ ..
        rintro rfl
        exact hne rfl
      case isFalse => exact absurd hstep (by simp)
  | announce name stamp =>
      simp only [step] at hstep
      split at hstep
      case isTrue hnew =>
        cases hstep
        have hsame : Inv plan (noticed s s.content name stamp) :=
          inv_noticed h hnew fun _ _ => rfl
        exact hsame
      case isFalse => exact absurd hstep (by simp)
  | clear =>
      simp only [step] at hstep
      split at hstep
      case h_1 =>
        cases hstep
        refine ⟨fun _ hrow => absurd hrow (by simp), fun _ hrow => absurd hrow (by simp), ?_, ?_⟩
        · exact fun l hl htodo => absurd hl htodo
        · exact fun f hf => absurd hf (by simp)
      case h_2 => exact absurd hstep (by simp)
  | read =>
      simp only [step] at hstep
      split at hstep
      case h_1 l todo hcase =>
        cases hstep
        rw [hcase] at hphase
        -- what is read now is as the table has it now
        exact h.toPhase ⟨hphase.1, fun f hf table _ => by rw [← Option.some.inj hf]⟩
      case h_2 row rows l todo hcase =>
        cases hstep
        rw [hcase] at hphase
        obtain ⟨hserved, hstamps, -, -, hreloaded⟩ := hphase
        refine h.toPhase ⟨hserved, hstamps, ?_, ?_, hreloaded⟩
        · exact fun f hf table _ => by rw [← Option.some.inj hf]
        · exact fun _ f hf table _ => by rw [← Option.some.inj hf]
      case h_3 => exact absurd hstep (by simp)
  | swap =>
      simp only [step] at hstep
      split at hstep
      case h_1 l todo found hcase =>
        cases hstep
        exact inv_swap_filling h hcase
      case h_2 row rows l todo found hcase =>
        cases hstep
        exact inv_swap_reloading h hcase
      case h_3 => exact absurd hstep (by simp)
  | filled =>
      simp only [step] at hstep
      split at hstep
      case h_1 hcase =>
        cases hstep
        rw [hcase] at hphase
        -- every list has been loaded once
        exact h.toPhase fun l table => hphase.1 l (plan.complete l) (by simp) table
      case h_2 => exact absurd hstep (by simp)
  | select rows =>
      simp only [step] at hstep
      split at hstep
      case h_1 hcase =>
        split at hstep
        case isTrue hperm =>
          cases hstep
          rw [hcase] at hphase
          -- the rows that are selected carry stamps of the past
          exact h.toPhase ⟨hphase, fun row hrow => h.stamped row (hperm.mem_iff.mp hrow)⟩
        case isFalse => exact absurd hstep (by simp)
      case h_2 => exact absurd hstep (by simp)
  | fetch =>
      simp only [step] at hstep
      split at hstep
      case h_1 row rows hcase =>
        cases hstep
        rw [hcase] at hphase
        refine h.toPhase ⟨hphase.1, hphase.2, ?_, ?_, ?_⟩
        · exact fun f hf => absurd hf (by simp)
        · exact fun _ f hf => absurd hf (by simp)
        · exact fun _ l hl htodo => absurd hl htodo
      case h_2 hcase =>
        cases hstep
        rw [hcase] at hphase
        exact h.toPhase hphase.1
      case h_3 => exact absurd hstep (by simp)
  | remove =>
      simp only [step] at hstep
      split at hstep
      case h_1 row rows hcase =>
        cases hstep
        -- the notice goes only if its stamp is the one that was selected
        exact inv_remove h hcase
      case h_2 => exact absurd hstep (by simp)
  | fail =>
      simp only [step] at hstep
      split at hstep
      case h_1 =>
        cases hstep
        exact h.toPhase trivial
      case h_2 hcase =>
        cases hstep
        rw [hcase] at hphase
        exact h.toPhase hphase.1
      case h_3 hcase =>
        cases hstep
        rw [hcase] at hphase
        exact h.toPhase hphase.1
      case h_4 => exact absurd hstep (by simp)

/-- Whatever the changes, the loads and the failures: once the caches have been
loaded, tables without a notice are as they are in all their caches. -/
theorem served_of_run {s₀ s : State τ ι ν δ} {as : List (Act τ ν δ)}
    (hcold : s₀.phase = .cold) (hstamped : ∀ row ∈ s₀.queue, row.2 ≤ s₀.stamp)
    (hsingle : ∀ row ∈ s₀.queue, ∀ row' ∈ s₀.queue, row.1 = row'.1 → row = row')
    (hrun : run (step plan) s₀ as = some s) (hwarm : s.phase.isWarm = true) :
    Served plan s := by
  have hinv₀ : Inv plan s₀ := ⟨hstamped, hsingle, by rw [hcold]; trivial⟩
  exact served_of_inv (run_invariant inv_step hinv₀ hrun) hwarm

end Runs

end Refresh
end Lib
end VoipBill
