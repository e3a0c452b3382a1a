import Mathlib.Tactic

/-!
# Copying a partitioned table by its keys

A table grows by rows with increasing keys and is divided into partitions.  Its
copy is brought up to date partition by partition: the rows of a partition with
keys above the greatest copied key of that partition are appended in batches.

A run looks at the first row behind the greatest copied key of all and brings
only the partitions in the window of that row up to date.

* `copyAll_eq`: copying in batches until nothing is left brings one partition up
  to date, whatever the size of the batches;
* `mem_syncRun`: what one run copies;
* `complete_iff`: repeated runs copy every row exactly when every missing row
  lies in the window of a leader, a row at which some run starts.
-/

namespace VoipBill
namespace Lib

/-- A table with increasing positive keys, divided into partitions. -/
structure Source (ρ μ : Type) where
  key : ρ → Int
  part : ρ → μ
  rows : List ρ
  sorted : rows.Pairwise fun a b => key a < key b
  positive : ∀ row ∈ rows, 0 < key row

namespace Source

variable {ρ μ : Type} [DecidableEq μ] (src : Source ρ μ)

/-- The rows of one partition. -/
def inPart (m : μ) (rows : List ρ) : List ρ := rows.filter fun row => src.part row = m

/-- `order by id desc limit 1`. -/
def lastKey (rows : List ρ) : Option Int := (rows.map src.key).max?

/-- The same as a number, 0 for no row. -/
def progress (rows : List ρ) : Int := (src.lastKey rows).getD 0

/-- Copy one batch of a partition; `none` when there is nothing to copy. -/
def copyPart (limit : Nat) (m : μ) (copied : List ρ) : Option (List ρ) :=
  match src.lastKey (src.inPart m src.rows) with
  | none => none
  | some localKey =>
      let copiedKey := src.progress (src.inPart m copied)
      if localKey ≤ copiedKey then none
      else
        some (copied ++
          ((src.inPart m src.rows).filter fun row => copiedKey < src.key row).take limit)

/-- Copy batches of a partition until there is nothing to copy. -/
def copyAll (limit : Nat) (m : μ) : Nat → List ρ → List ρ
  | 0, copied => copied
  | fuel + 1, copied =>
      match src.copyPart limit m copied with
      | none => copied
      | some copied' => copyAll limit m fuel copied'

/-- The rows of a partition behind those that are copied. -/
def missing (m : μ) (copied : List ρ) : List ρ :=
  (src.inPart m src.rows).drop (src.inPart m copied).length

/-- Bring partitions up to date, one after another. -/
def catchUp (ms : List μ) (copied : List ρ) : List ρ :=
  ms.foldl (fun copied m => copied ++ src.missing m copied) copied

/-- One run: the partitions in the window of the first row behind the progress. -/
def syncRun (window : μ → List μ) (copied : List ρ) : List ρ :=
  match src.rows.find? fun row => src.progress copied < src.key row with
  | none => copied
  | some row => src.catchUp (window (src.part row)) copied

/-- The copied rows of every partition are its first rows. -/
def InStep (copied : List ρ) : Prop :=
  ∀ m, src.inPart m copied <+: src.inPart m src.rows

variable {src}

/-! ### Keys -/

theorem mem_inPart {m : μ} {rows : List ρ} {row : ρ} :
    row ∈ src.inPart m rows ↔ row ∈ rows ∧ src.part row = m := by
  simp [inPart]

theorem inPart_append (m : μ) (rows rows' : List ρ) :
    src.inPart m (rows ++ rows') = src.inPart m rows ++ src.inPart m rows' :=
  List.filter_append _ _

theorem inPart_eq_self {m : μ} {rows : List ρ} (h : ∀ row ∈ rows, src.part row = m) :
    src.inPart m rows = rows :=
  List.filter_eq_self.mpr fun row hrow => by simpa using h row hrow

theorem inPart_eq_nil {m m' : μ} {rows : List ρ} (h : ∀ row ∈ rows, src.part row = m)
    (hne : m ≠ m') : src.inPart m' rows = [] := by
  rw [inPart, List.filter_eq_nil_iff]
  intro row hrow
  rw [h row hrow]
  simpa using hne

theorem sorted_inPart (m : μ) :
    (src.inPart m src.rows).Pairwise fun a b => src.key a < src.key b :=
  src.sorted.sublist List.filter_sublist

theorem positive_inPart {m : μ} {row : ρ} (h : row ∈ src.inPart m src.rows) :
    0 < src.key row :=
  src.positive row (mem_inPart.mp h).1

omit [DecidableEq μ] in
theorem lastKey_eq_some {rows : List ρ} {k : Int} (h : src.lastKey rows = some k) :
    (∃ row ∈ rows, src.key row = k) ∧ ∀ row ∈ rows, src.key row ≤ k := by
  obtain ⟨hmem, hle⟩ := List.max?_eq_some_iff.mp h
  constructor
  · simpa using hmem
  · intro row hrow
    exact hle _ (List.mem_map_of_mem hrow)

omit [DecidableEq μ] in
theorem lastKey_eq_none {rows : List ρ} : src.lastKey rows = none ↔ rows = [] := by
  rw [lastKey, List.max?_eq_none_iff, List.map_eq_nil_iff]

omit [DecidableEq μ] in
theorem le_progress {rows : List ρ} {row : ρ} (h : row ∈ rows) :
    src.key row ≤ src.progress rows := by
  cases hlast : src.lastKey rows with
  | none =>
      rw [lastKey_eq_none.mp hlast] at h
      simp at h
  | some k =>
      rw [progress, hlast]
      exact (lastKey_eq_some hlast).2 row h

omit [DecidableEq μ] in
/-- The progress is 0 or the key of a row. -/
theorem progress_cases (src : Source ρ μ) (rows : List ρ) :
    src.progress rows = 0 ∨ ∃ row ∈ rows, src.key row = src.progress rows := by
  cases hlast : src.lastKey rows with
  | none => exact Or.inl (by rw [progress, hlast]; rfl)
  | some k =>
      obtain ⟨row, hrow, hkey⟩ := (lastKey_eq_some hlast).1
      exact Or.inr ⟨row, hrow, by rw [progress, hlast, hkey]; rfl⟩

omit [DecidableEq μ] in
theorem progress_lt {rows : List ρ} {k : Int} (hpos : 0 < k)
    (h : ∀ row ∈ rows, src.key row < k) : src.progress rows < k := by
  rcases progress_cases src rows with hzero | ⟨row, hrow, hkey⟩
  · omega
  · rw [← hkey]
    exact h row hrow

omit [DecidableEq μ] in
/-- In a table with increasing keys the rows above the greatest key of a first part
are the rest. -/
theorem filter_above {first rest : List ρ}
    (hsorted : (first ++ rest).Pairwise fun a b => src.key a < src.key b)
    (hpositive : ∀ row ∈ first ++ rest, 0 < src.key row) :
    ((first ++ rest).filter fun row => src.progress first < src.key row) = rest := by
  have hcross := (List.pairwise_append.mp hsorted).2.2
  have hfirst : (first.filter fun row => src.progress first < src.key row) = [] := by
    rw [List.filter_eq_nil_iff]
    intro row hrow
    have hle : src.key row ≤ src.progress first := le_progress hrow
    simpa using hle
  have hrest : (rest.filter fun row => src.progress first < src.key row) = rest := by
    rw [List.filter_eq_self]
    intro row hrow
    have hlt : src.progress first < src.key row :=
      progress_lt (hpositive row (List.mem_append_right _ hrow))
        fun other hother => hcross other hother row hrow
    simpa using hlt
  rw [List.filter_append, hfirst, hrest, List.nil_append]

/-! ### One partition -/

theorem inPart_append_missing {m : μ} {copied : List ρ}
    (h : src.inPart m copied <+: src.inPart m src.rows) :
    src.inPart m copied ++ src.missing m copied = src.inPart m src.rows := by
  obtain ⟨rest, hrest⟩ := h
  rw [missing, ← hrest, List.drop_left]

theorem part_of_mem_missing {m : μ} {copied : List ρ} {row : ρ}
    (h : row ∈ src.missing m copied) : row ∈ src.rows ∧ src.part row = m :=
  mem_inPart.mp (List.mem_of_mem_drop h)

/-- One batch is the beginning of what is missing. -/
theorem copyPart_eq (limit : Nat) {m : μ} {copied : List ρ}
    (h : src.inPart m copied <+: src.inPart m src.rows) :
    src.copyPart limit m copied =
      if src.missing m copied = [] then none
      else some (copied ++ (src.missing m copied).take limit) := by
  have hsplit := inPart_append_missing h
  have hsorted : (src.inPart m src.rows).Pairwise fun a b => src.key a < src.key b :=
    sorted_inPart m
  have hpositive : ∀ row ∈ src.inPart m src.rows, 0 < src.key row := fun row hrow =>
    positive_inPart hrow
  rw [← hsplit] at hsorted hpositive
  have hfilter := filter_above hsorted hpositive
  rw [hsplit] at hfilter
  rw [copyPart]
  by_cases hmissing : src.missing m copied = []
  · rw [if_pos hmissing]
    rw [hmissing, List.append_nil] at hsplit
    cases hlast : src.lastKey (src.inPart m src.rows) with
    | none => rfl
    | some localKey =>
        -- with nothing missing the last key is reached
        have hle : localKey ≤ src.progress (src.inPart m copied) := by
          rw [hsplit, progress, hlast]
          exact le_refl _
        simp only [if_pos hle]
  · rw [if_neg hmissing]
    obtain ⟨row, hrow⟩ := List.exists_mem_of_ne_nil _ hmissing
    have hmem : row ∈ src.inPart m src.rows := by
      rw [← hsplit]
      exact List.mem_append_right _ hrow
    cases hlast : src.lastKey (src.inPart m src.rows) with
    | none =>
        rw [lastKey_eq_none.mp hlast] at hmem
        simp at hmem
    | some localKey =>
        -- a missing row lies above what is reached
        have habove : src.progress (src.inPart m copied) < src.key row := by
          rw [← hfilter] at hrow
          simpa using (List.mem_filter.mp hrow).2
        have hle := (lastKey_eq_some hlast).2 row hmem
        have hnot : ¬ localKey ≤ src.progress (src.inPart m copied) := by omega
        simp only [if_neg hnot, hfilter]

/-- After a batch of a partition the rest of it is missing. -/
theorem missing_append {m : μ} {copied rows : List ρ} (hpart : ∀ row ∈ rows, src.part row = m) :
    src.missing m (copied ++ rows) = (src.missing m copied).drop rows.length := by
  rw [missing, inPart_append, inPart_eq_self hpart, List.length_append, missing, List.drop_drop]

/-- Rows of one partition are nothing to the others. -/
theorem missing_append_of_ne {m m' : μ} {copied rows : List ρ}
    (hpart : ∀ row ∈ rows, src.part row = m) (hne : m ≠ m') :
    src.missing m' (copied ++ rows) = src.missing m' copied := by
  rw [missing, inPart_append, inPart_eq_nil hpart hne, List.append_nil, missing]

/-- After a batch the rows behind it are missing. -/
theorem missing_append_take (limit : Nat) (m : μ) (copied : List ρ) :
    src.missing m (copied ++ (src.missing m copied).take limit) =
      (src.missing m copied).drop limit := by
  have hbatch : ∀ row ∈ (src.missing m copied).take limit, src.part row = m := fun row hrow =>
    (part_of_mem_missing (List.mem_of_mem_take hrow)).2
  rw [missing_append hbatch, List.length_take]
  rcases Nat.le_total limit (src.missing m copied).length with hle | hle
  · rw [Nat.min_eq_left hle]
  · rw [Nat.min_eq_right hle, List.drop_length, List.drop_of_length_le hle]

theorem inStep_append {m : μ} {copied rows : List ρ} (h : src.InStep copied)
    (hrows : rows <+: src.missing m copied) : src.InStep (copied ++ rows) := by
  have hpart : ∀ row ∈ rows, src.part row = m := fun row hrow =>
    (part_of_mem_missing (hrows.subset hrow)).2
  intro m'
  rw [inPart_append]
  by_cases hm : m = m'
  · subst hm
    rw [inPart_eq_self hpart, ← inPart_append_missing (h m)]
    exact (List.prefix_append_right_inj _).mpr hrows
  · rw [inPart_eq_nil hpart hm, List.append_nil]
    exact h m'

/-- **Copying in batches** brings the partition up to date. -/
theorem copyAll_eq {limit : Nat} (hlimit : 0 < limit) {m : μ} :
    ∀ {fuel : Nat} {copied : List ρ}, src.InStep copied →
      (src.missing m copied).length < fuel →
      src.copyAll limit m fuel copied = copied ++ src.missing m copied
  | 0, copied, _, hfuel => absurd hfuel (Nat.not_lt_zero _)
  | fuel + 1, copied, hstep, hfuel => by
      rw [copyAll, copyPart_eq limit (hstep m)]
      by_cases hmissing : src.missing m copied = []
      · rw [if_pos hmissing, hmissing, List.append_nil]
      · rw [if_neg hmissing]
        dsimp only
        have hlength : 0 < (src.missing m copied).length := List.length_pos_iff.mpr hmissing
        have hrest : src.missing m (copied ++ (src.missing m copied).take limit) =
            (src.missing m copied).drop limit := missing_append_take limit m copied
        rw [copyAll_eq hlimit (inStep_append hstep (List.take_prefix limit _)) (by
          rw [hrest, List.length_drop]; omega), hrest, List.append_assoc, List.take_append_drop]

/-! ### Runs -/

theorem syncRun_of_none {window : μ → List μ} {copied : List ρ}
    (h : (src.rows.find? fun row => src.progress copied < src.key row) = none) :
    src.syncRun window copied = copied := by
  rw [syncRun, h]

theorem syncRun_of_some {window : μ → List μ} {copied : List ρ} {row : ρ}
    (h : (src.rows.find? fun row => src.progress copied < src.key row) = some row) :
    src.syncRun window copied = src.catchUp (window (src.part row)) copied := by
  rw [syncRun, h]

theorem catchUp_cons (m : μ) (ms : List μ) (copied : List ρ) :
    src.catchUp (m :: ms) copied = src.catchUp ms (copied ++ src.missing m copied) := rfl

/-- A batch of the first partition changes nothing in the end. -/
theorem catchUp_append_take (limit : Nat) (m : μ) (ms : List μ) (copied : List ρ) :
    src.catchUp (m :: ms) (copied ++ (src.missing m copied).take limit) =
      src.catchUp (m :: ms) copied := by
  rw [catchUp_cons, missing_append_take, List.append_assoc, List.take_append_drop, catchUp_cons]

theorem inStep_catchUp {ms : List μ} {copied : List ρ} (h : src.InStep copied) :
    src.InStep (src.catchUp ms copied) := by
  induction ms generalizing copied with
  | nil => exact h
  | cons m ms ih => exact ih (inStep_append h List.prefix_rfl)

theorem inStep_syncRun {window : μ → List μ} {copied : List ρ} (h : src.InStep copied) :
    src.InStep (src.syncRun window copied) := by
  rw [syncRun]
  split
  · exact h
  · exact inStep_catchUp h

theorem mem_of_mem_missing_or {m : μ} {copied : List ρ} (h : src.InStep copied) {row : ρ}
    (hrow : row ∈ src.rows) (hpart : src.part row = m) :
    row ∈ copied ∨ row ∈ src.missing m copied := by
  have hmem : row ∈ src.inPart m copied ++ src.missing m copied := by
    rw [inPart_append_missing (h m)]
    exact mem_inPart.mpr ⟨hrow, hpart⟩
  rcases List.mem_append.mp hmem with hcopied | hmissing
  · exact Or.inl (mem_inPart.mp hcopied).1
  · exact Or.inr hmissing

/-- What is copied when partitions are brought up to date. -/
theorem mem_catchUp {ms : List μ} {copied : List ρ} (h : src.InStep copied) {row : ρ} :
    row ∈ src.catchUp ms copied ↔ row ∈ copied ∨ row ∈ src.rows ∧ src.part row ∈ ms := by
  induction ms generalizing copied with
  | nil => simp [catchUp]
  | cons m ms ih =>
      have hrest : row ∈ src.catchUp (m :: ms) copied ↔
          row ∈ copied ++ src.missing m copied ∨ row ∈ src.rows ∧ src.part row ∈ ms :=
        ih (inStep_append h List.prefix_rfl)
      rw [hrest, List.mem_append, List.mem_cons]
      constructor
      · rintro ((hcopied | hmissing) | ⟨hrow, hpart⟩)
        · exact Or.inl hcopied
        · exact Or.inr ⟨(part_of_mem_missing hmissing).1,
            Or.inl (part_of_mem_missing hmissing).2⟩
        · exact Or.inr ⟨hrow, Or.inr hpart⟩
      · rintro (hcopied | ⟨hrow, hpart | hpart⟩)
        · exact Or.inl (Or.inl hcopied)
        · exact Or.inl (mem_of_mem_missing_or h hrow hpart)
        · exact Or.inr ⟨hrow, hpart⟩

/-- **What one run copies.** -/
theorem mem_syncRun {window : μ → List μ} {copied : List ρ} (h : src.InStep copied) {row : ρ} :
    row ∈ src.syncRun window copied ↔
      row ∈ copied ∨
        ∃ first, (src.rows.find? fun other => src.progress copied < src.key other) = some first ∧
          row ∈ src.rows ∧ src.part row ∈ window (src.part first) := by
  rw [syncRun]
  cases hfind : src.rows.find? fun other => src.progress copied < src.key other with
  | none => simp
  | some first => simpa using mem_catchUp h

/-- A copied row is copied once. -/
theorem count_eq_one [DecidableEq ρ] {copied : List ρ} (h : src.InStep copied) {row : ρ}
    (hrow : row ∈ copied) : copied.count row = 1 := by
  have hnodup : src.rows.Nodup := by
    refine List.Pairwise.imp ?_ src.sorted
    rintro a b hlt rfl
    exact lt_irrefl _ hlt
  have hpart : (src.inPart (src.part row) copied).Nodup :=
    (hnodup.sublist List.filter_sublist).sublist (h (src.part row)).sublist
  have hcount : copied.count row = (src.inPart (src.part row) copied).count row := by
    rw [inPart, List.count_filter (by simp)]
  rw [hcount]
  exact List.count_eq_one_of_mem hpart (mem_inPart.mpr ⟨hrow, rfl⟩)

/-! ### Leaders -/

/-- The copy after a number of runs. -/
def afterRuns (src : Source ρ μ) (window : μ → List μ) (copied : List ρ) : Nat → List ρ
  | 0 => copied
  | n + 1 => src.syncRun window (afterRuns src window copied n)

/-- The rows at which runs start, told from the table alone: the first row behind the
first `n`, and behind a leader the first row after the last row of its window. -/
inductive Leader (src : Source ρ μ) (window : μ → List μ) (n : Nat) : ρ → Prop
  | first {row : ρ} (h : (src.rows.drop n).head? = some row) : Leader src window n row
  | next {row row' : ρ} (h : Leader src window n row)
      (h' : (src.rows.find? fun other =>
        src.progress (src.rows.filter fun r => src.part r ∈ window (src.part row)) <
          src.key other) = some row') : Leader src window n row'

section Leaders

variable {window : μ → List μ} {n : Nat}

theorem inStep_take (n : Nat) : src.InStep (src.rows.take n) := fun _ =>
  (List.take_prefix n src.rows).filter _

theorem inStep_afterRuns {copied : List ρ} (h : src.InStep copied) (k : Nat) :
    src.InStep (src.afterRuns window copied k) := by
  induction k with
  | zero => exact h
  | succ k ih => exact inStep_syncRun ih

/-- Runs that agree with those of the copy on what is in step. -/
theorem eq_afterRuns {copied : List ρ} {run : List ρ → List ρ} {runs : Nat → List ρ}
    (h : src.InStep copied) (hzero : runs 0 = copied) (hsucc : ∀ k, runs (k + 1) = run (runs k))
    (hrun : ∀ rows, src.InStep rows → run rows = src.syncRun window rows) (k : Nat) :
    runs k = src.afterRuns window copied k := by
  induction k with
  | zero => exact hzero
  | succ k ih => rw [hsucc, ih, hrun _ (inStep_afterRuns h k), afterRuns]

theorem subset_afterRuns {copied : List ρ} (h : src.InStep copied) {k l : Nat} (hkl : k ≤ l)
    {row : ρ} (hrow : row ∈ src.afterRuns window copied k) :
    row ∈ src.afterRuns window copied l := by
  induction hkl with
  | refl => exact hrow
  | step _ ih => exact (mem_syncRun (inStep_afterRuns h _)).mpr (Or.inl ih)

omit [DecidableEq μ] in
/-- Behind the first rows the next row is the first one above the progress. -/
theorem find?_progress_take (n : Nat) :
    (src.rows.find? fun row => src.progress (src.rows.take n) < src.key row) =
      (src.rows.drop n).head? := by
  have hsorted := src.sorted
  have hpositive := src.positive
  rw [← List.take_append_drop n src.rows] at hsorted hpositive
  have hfilter := filter_above hsorted hpositive
  rw [List.take_append_drop] at hfilter
  rw [← List.head?_filter, hfilter]

/-- The progress of a run: the last row of the window it copied. -/
theorem progress_syncRun {copied : List ρ} (hstep : src.InStep copied) {first : ρ}
    (hself : ∀ m, m ∈ window m)
    (hfind : (src.rows.find? fun other => src.progress copied < src.key other) = some first) :
    src.progress (src.syncRun window copied) =
      src.progress (src.rows.filter fun r => src.part r ∈ window (src.part first)) := by
  have hrow : first ∈ src.rows := List.mem_of_find?_eq_some hfind
  have habove : src.progress copied < src.key first := by
    simpa using List.find?_some hfind
  have hwindow : first ∈ src.rows.filter fun r => src.part r ∈ window (src.part first) := by
    simpa using ⟨hrow, hself _⟩
  have hpos := src.positive first hrow
  generalize hrows : (src.rows.filter fun r => src.part r ∈ window (src.part first)) = rows
    at hwindow
  have hle : src.key first ≤ src.progress rows := le_progress hwindow
  apply le_antisymm
  · rcases progress_cases src (src.syncRun window copied) with hzero | ⟨row, hmem, hkey⟩
    · omega
    · rw [← hkey]
      rcases (mem_syncRun hstep).mp hmem with hcopied | ⟨other, hother, hin, hpart⟩
      · have hle' : src.key row ≤ src.progress copied := le_progress hcopied
        omega
      · rw [hfind, Option.some.injEq] at hother
        subst hother
        apply le_progress
        rw [← hrows]
        simpa using ⟨hin, hpart⟩
  · rcases progress_cases src rows with hzero | ⟨row, hmem, hkey⟩
    · omega
    · rw [← hkey]
      rw [← hrows, List.mem_filter, decide_eq_true_eq] at hmem
      exact le_progress ((mem_syncRun hstep).mpr (Or.inr ⟨first, hfind, hmem⟩))

/-- A run starts at a leader. -/
theorem leader_of_find (hself : ∀ m, m ∈ window m) (k : Nat) {first : ρ}
    (hfind : (src.rows.find? fun other =>
      src.progress (src.afterRuns window (src.rows.take n) k) < src.key other) = some first) :
    src.Leader window n first := by
  induction k generalizing first with
  | zero => exact .first (by rw [← find?_progress_take]; exact hfind)
  | succ k ih =>
      have hstep : src.InStep (src.afterRuns window (src.rows.take n) k) :=
        inStep_afterRuns (inStep_take n) k
      cases hbefore : src.rows.find? fun other =>
          src.progress (src.afterRuns window (src.rows.take n) k) < src.key other with
      | none =>
          have hsame : src.afterRuns window (src.rows.take n) (k + 1) =
              src.afterRuns window (src.rows.take n) k := by
            rw [afterRuns, syncRun_of_none hbefore]
          rw [hsame, hbefore] at hfind
          simp at hfind
      | some before =>
          rw [afterRuns, progress_syncRun hstep hself hbefore] at hfind
          exact .next (ih hbefore) hfind

/-- At every leader some run starts. -/
theorem exists_run_of_leader (hself : ∀ m, m ∈ window m) {row : ρ}
    (h : src.Leader window n row) :
    ∃ k, (src.rows.find? fun other =>
      src.progress (src.afterRuns window (src.rows.take n) k) < src.key other) = some row := by
  induction h with
  | first h => exact ⟨0, by rw [afterRuns, find?_progress_take, h]⟩
  | next _ h' ih =>
      obtain ⟨k, hk⟩ := ih
      refine ⟨k + 1, ?_⟩
      rw [afterRuns, progress_syncRun (inStep_afterRuns (inStep_take n) k) hself hk]
      exact h'

/-- What the runs copy in the end: the first rows and the windows of the leaders. -/
theorem exists_mem_afterRuns_iff (hself : ∀ m, m ∈ window m) {row : ρ} (hrow : row ∈ src.rows) :
    (∃ k, row ∈ src.afterRuns window (src.rows.take n) k) ↔
      row ∈ src.rows.take n ∨
        ∃ leader, src.Leader window n leader ∧ src.part row ∈ window (src.part leader) := by
  constructor
  · rintro ⟨k, hmem⟩
    induction k with
    | zero => exact Or.inl hmem
    | succ k ih =>
        rcases (mem_syncRun (inStep_afterRuns (inStep_take n) k)).mp hmem with
          hbefore | ⟨first, hfind, -, hpart⟩
        · exact ih hbefore
        · exact Or.inr ⟨first, leader_of_find hself k hfind, hpart⟩
  · rintro (hfirst | ⟨leader, hleader, hpart⟩)
    · exact ⟨0, hfirst⟩
    · obtain ⟨k, hk⟩ := exists_run_of_leader hself hleader
      exact ⟨k + 1, (mem_syncRun (inStep_afterRuns (inStep_take n) k)).mpr
        (Or.inr ⟨leader, hk, hrow, hpart⟩)⟩

/-- A number of runs after which every one of finitely many rows is there. -/
theorem exists_run_of_forall {rows : List ρ}
    (h : ∀ row ∈ rows, ∃ k, row ∈ src.afterRuns window (src.rows.take n) k) :
    ∃ k, ∀ row ∈ rows, row ∈ src.afterRuns window (src.rows.take n) k := by
  induction rows with
  | nil => exact ⟨0, by simp⟩
  | cons row rows ih =>
      obtain ⟨k, hk⟩ := h row List.mem_cons_self
      obtain ⟨l, hl⟩ := ih fun other hother => h other (List.mem_cons_of_mem row hother)
      refine ⟨max k l, fun other hother => ?_⟩
      rcases List.mem_cons.mp hother with rfl | hmem
      · exact subset_afterRuns (inStep_take n) (le_max_left k l) hk
      · exact subset_afterRuns (inStep_take n) (le_max_right k l) (hl other hmem)

/-- Every row of the table is copied exactly once. -/
def Complete [DecidableEq ρ] (src : Source ρ μ) (copied : List ρ) : Prop :=
  ∀ row ∈ src.rows, copied.count row = 1

omit [DecidableEq μ] in
theorem mem_of_complete [DecidableEq ρ] {copied : List ρ} (h : src.Complete copied) {row : ρ}
    (hrow : row ∈ src.rows) : row ∈ copied := by
  apply List.count_pos_iff.mp
  rw [h row hrow]
  exact Nat.one_pos

/-- What is complete stays complete. -/
theorem complete_afterRuns [DecidableEq ρ] {k l : Nat} (hkl : k ≤ l)
    (h : src.Complete (src.afterRuns window (src.rows.take n) k)) :
    src.Complete (src.afterRuns window (src.rows.take n) l) := fun _ hrow =>
  count_eq_one (inStep_afterRuns (inStep_take n) l)
    (subset_afterRuns (inStep_take n) hkl (mem_of_complete h hrow))

/-- **When repeated runs copy everything.**  From the first `n` rows on, some number of
runs copies every row exactly once if and only if every other row lies in the window
of a leader. -/
theorem complete_iff [DecidableEq ρ] (src : Source ρ μ) (n : Nat)
    (hself : ∀ m, m ∈ window m) :
    (∃ k, src.Complete (src.afterRuns window (src.rows.take n) k)) ↔
      ∀ row ∈ src.rows.drop n,
        ∃ leader, src.Leader window n leader ∧ src.part row ∈ window (src.part leader) := by
  constructor
  · rintro ⟨k, hk⟩ row hdrop
    have hrow := List.mem_of_mem_drop hdrop
    have hnew : row ∉ src.rows.take n := by
      intro htake
      have hsorted := src.sorted
      rw [← List.take_append_drop n src.rows] at hsorted
      exact lt_irrefl _ ((List.pairwise_append.mp hsorted).2.2 row htake row hdrop)
    have hcopied := (exists_mem_afterRuns_iff hself hrow).mp ⟨k, mem_of_complete hk hrow⟩
    exact hcopied.resolve_left hnew
  · intro hall
    have heach : ∀ row ∈ src.rows, ∃ k, row ∈ src.afterRuns window (src.rows.take n) k := by
      intro row hrow
      rw [exists_mem_afterRuns_iff hself hrow]
      rw [← List.take_append_drop n src.rows, List.mem_append] at hrow
      exact hrow.imp_right (hall row)
    obtain ⟨k, hk⟩ := exists_run_of_forall heach
    exact ⟨k, fun row hrow => count_eq_one (inStep_afterRuns (inStep_take n) k) (hk row hrow)⟩

end Leaders

end Source
end Lib
end VoipBill
