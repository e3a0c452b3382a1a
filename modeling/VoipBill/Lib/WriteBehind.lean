import VoipBill.Lib.IntMap

/-!
# Write-behind tables

A `Ledger` keeps rows in memory and queues every changed row for the database
in the last of a list of partitions.  A new partition can be opened at any
time; the first partition is written to the database as a whole and dropped.

Rows are changed on behalf of entries of a log.  `Tracks` says what the queue
is worth: cut the log where the partitions were opened, and writing the first
`j` partitions brings every row that the first `j` pieces of the log touched to
the value it had in memory when the last of these entries was logged.  The
operations of a ledger keep `Tracks`:

* `Tracks.add` — an entry is logged, with or without a changed row;
* `Tracks.create` — a fresh row is queued outside of the log;
* `Tracks.openPart` — a partition is opened;
* `Tracks.commit` — the first partition is written and dropped.
-/

namespace VoipBill
namespace Lib

/-! ## The last partition of a queue -/

section ModifyLast

variable {α : Type}

/-- Change the last element of a vector: `parts.at(parts.size() - 1)`. -/
def modifyLast (f : α → α) (parts : List α) : List α := parts.modify (parts.length - 1) f

@[simp] theorem modifyLast_concat (f : α → α) (front : List α) (last : α) :
    modifyLast f (front ++ [last]) = front ++ [f last] := by
  induction front with
  | nil => rfl
  | cons a front ih =>
      simp only [modifyLast, List.cons_append, List.length_cons, List.length_append,
        List.length_nil, Nat.zero_add, Nat.add_sub_cancel] at ih ⊢
      rw [List.modify_succ_cons, ih]

@[simp] theorem length_modifyLast (f : α → α) (parts : List α) :
    (modifyLast f parts).length = parts.length := by
  simp [modifyLast]

@[simp] theorem modifyLast_cons_cons (f : α → α) (a b : α) (parts : List α) :
    modifyLast f (a :: b :: parts) = a :: modifyLast f (b :: parts) := by
  simp [modifyLast]

/-- Only the last partition changes. -/
theorem take_modifyLast (f : α → α) (parts : List α) {j : Nat} (hj : j < parts.length) :
    (modifyLast f parts).take j = parts.take j := by
  rw [modifyLast, List.take_modify, List.modify_eq_self]
  rw [List.length_take]
  omega

theorem tail_modifyLast (f : α → α) {parts : List α} (h : 2 ≤ parts.length) :
    (modifyLast f parts).tail = modifyLast f parts.tail := by
  match parts, h with
  | a :: b :: rest, _ => simp

/-- The partitions from one of them on. -/
theorem drop_modifyLast (f : α → α) {parts : List α} {j : Nat} (h : j < parts.length) :
    (modifyLast f parts).drop j = modifyLast f (parts.drop j) := by
  obtain ⟨front, last, rfl⟩ := List.eq_nil_or_concat' parts |>.resolve_left
    (List.ne_nil_of_length_pos (by omega))
  have hle : j ≤ front.length := by
    rw [List.length_append, List.length_singleton] at h
    omega
  rw [modifyLast_concat, List.drop_append_of_le_length hle, List.drop_append_of_le_length hle,
    modifyLast_concat]

theorem headD_modifyLast (f : α → α) {parts : List α} (h : 2 ≤ parts.length) (a : α) :
    (modifyLast f parts).headD a = parts.headD a := by
  match parts, h with
  | a :: b :: rest, _ => simp

theorem headD_concat {parts : List α} (h : 1 ≤ parts.length) (a b : α) :
    (parts ++ [b]).headD a = parts.headD a := by
  match parts, h with
  | a :: rest, _ => rfl

/-- Queueing in the last partition queues at the end. -/
theorem flatten_modifyLast_append {β : Type} (b : β) {parts : List (List β)} (h : parts ≠ []) :
    (modifyLast (fun part => part ++ [b]) parts).flatten = parts.flatten ++ [b] := by
  obtain ⟨front, last, rfl⟩ := List.eq_nil_or_concat' parts |>.resolve_left h
  simp

theorem map_modifyLast {β : Type} (g : α → β) (f : α → α) (f' : β → β)
    (h : ∀ a, g (f a) = f' (g a)) (parts : List α) :
    (modifyLast f parts).map g = modifyLast f' (parts.map g) := by
  rcases List.eq_nil_or_concat' parts with rfl | ⟨front, last, rfl⟩
  · rfl
  · simp [h]

end ModifyLast

/-! ## Rows in memory and queued rows -/

/-- Rows in memory and the partitions of changed rows, oldest first. -/
structure Ledger (ρ : Type) where
  rows : IntMap ρ
  parts : List (IntMap ρ)

namespace Ledger

variable {ρ : Type}

/-- Set a row and queue it in the last partition. -/
def put (l : Ledger ρ) (k : Int) (r : ρ) : Ledger ρ where
  rows := l.rows.insert k r
  parts := modifyLast (fun part => part.insert k r) l.parts

def openPart (l : Ledger ρ) : Ledger ρ := { l with parts := l.parts ++ [∅] }

def dropPart (l : Ledger ρ) : Ledger ρ := { l with parts := l.parts.tail }

@[simp] theorem put_rows (l : Ledger ρ) (k : Int) (r : ρ) :
    (l.put k r).rows = l.rows.insert k r := rfl

@[simp] theorem openPart_rows (l : Ledger ρ) : l.openPart.rows = l.rows := rfl

@[simp] theorem dropPart_rows (l : Ledger ρ) : l.dropPart.rows = l.rows := rfl

@[simp] theorem length_parts_put (l : Ledger ρ) (k : Int) (r : ρ) :
    (l.put k r).parts.length = l.parts.length := by
  simp [put]

@[simp] theorem length_parts_openPart (l : Ledger ρ) :
    l.openPart.parts.length = l.parts.length + 1 := by
  simp [openPart]

@[simp] theorem length_parts_dropPart (l : Ledger ρ) :
    l.dropPart.parts.length = l.parts.length - 1 := by
  simp [dropPart]

/-- A change of at most one row. -/
def Writes (l l' : Ledger ρ) : Prop := l' = l ∨ ∃ k r, l' = l.put k r

theorem Writes.length_parts {l l' : Ledger ρ} (h : l.Writes l') :
    l'.parts.length = l.parts.length := by
  rcases h with rfl | ⟨k, r, rfl⟩
  · rfl
  · exact length_parts_put l k r

/-- With a second partition open, the first one no longer changes. -/
theorem Writes.headD_parts {l l' : Ledger ρ} (h : l.Writes l') (h2 : 2 ≤ l.parts.length)
    (part : IntMap ρ) : l'.parts.headD part = l.parts.headD part := by
  rcases h with rfl | ⟨k, r, rfl⟩
  · rfl
  · exact headD_modifyLast _ h2 part

/-- The partitions still to be written; the first one is left over when it is
written already but not yet dropped. -/
def pending (l : Ledger ρ) (written : Bool) : Ledger ρ := if written then l.dropPart else l

@[simp] theorem pending_false (l : Ledger ρ) : l.pending false = l := rfl

@[simp] theorem pending_true (l : Ledger ρ) : l.pending true = l.dropPart := rfl

@[simp] theorem pending_rows (l : Ledger ρ) (written : Bool) :
    (l.pending written).rows = l.rows := by
  cases written <;> rfl

theorem length_parts_pending (l : Ledger ρ) (written : Bool) :
    (l.pending written).parts.length = l.parts.length - written.toNat := by
  cases written <;> simp [pending]

theorem pending_put (l : Ledger ρ) (k : Int) (r : ρ) {written : Bool}
    (h : written.toNat < l.parts.length) :
    (l.put k r).pending written = (l.pending written).put k r := by
  cases written with
  | false => rfl
  | true => simp [pending, put, dropPart, tail_modifyLast _ (show 2 ≤ l.parts.length from h)]

theorem pending_openPart (l : Ledger ρ) {written : Bool}
    (h : written.toNat < l.parts.length) :
    l.openPart.pending written = (l.pending written).openPart := by
  cases written with
  | false => rfl
  | true =>
      have hne : l.parts ≠ [] := List.ne_nil_of_length_pos (by omega)
      simp [pending, openPart, dropPart, List.tail_append_of_ne_nil hne]

end Ledger

/-! ## Writing partitions to the database -/

section Flush

variable {ρ : Type}

/-- The table after all partitions have been written, oldest first. -/
def flush (db : IntMap ρ) (parts : List (IntMap ρ)) : IntMap ρ :=
  parts.foldl IntMap.upsert db

@[simp] theorem flush_nil (db : IntMap ρ) : flush db [] = db := rfl

@[simp] theorem flush_cons (db part : IntMap ρ) (parts : List (IntMap ρ)) :
    flush db (part :: parts) = flush (IntMap.upsert db part) parts := rfl

theorem flush_concat (db part : IntMap ρ) (parts : List (IntMap ρ)) :
    flush db (parts ++ [part]) = IntMap.upsert (flush db parts) part := by
  simp [flush]

/-- A row queued last is the row that ends up in the table. -/
theorem flush_put (db : IntMap ρ) (l : Ledger ρ) (k : Int) (r : ρ) (h : l.parts ≠ []) :
    flush db (l.put k r).parts = (flush db l.parts).insert k r := by
  obtain ⟨rows, parts⟩ := l
  obtain ⟨front, last, rfl⟩ := List.eq_nil_or_concat' parts |>.resolve_left h
  simp only [Ledger.put, modifyLast_concat]
  rw [flush_concat, flush_concat, IntMap.upsert_insert]

theorem flush_openPart (db : IntMap ρ) (l : Ledger ρ) :
    flush db l.openPart.parts = flush db l.parts := by
  rw [Ledger.openPart, flush_concat, IntMap.upsert_empty]

end Flush

/-! ## What the queue is worth -/

section Tracks

variable {α ρ : Type}

/-- A log of entries, each with the rows in memory right after it. -/
abbrev RowLog (α ρ : Type) : Type := List (α × IntMap ρ)

/-- Some entry of the log is booked on row `k`. -/
def Touched (key : α → Option Int) (log : RowLog α ρ) (k : Int) : Prop :=
  ∃ e ∈ log, key e.1 = some k

/-- The rows in memory right after the last entry of the log. -/
def lastRows (log : RowLog α ρ) : IntMap ρ := (log.getLast?.map Prod.snd).getD ∅

/-- Every touched row has in the table the value it had after the last entry. -/
def Holds (key : α → Option Int) (log : RowLog α ρ) (db : IntMap ρ) : Prop :=
  ∀ k r, Touched key log k → (lastRows log)[k]? = some r → db[k]? = some r

/-- `sizes` are the numbers of log entries behind the partitions of `l`, after
the first `base` entries, whose partitions are already written. -/
structure Tracks (key : α → Option Int) (log : RowLog α ρ) (base : Nat) (sizes : List Nat)
    (l : Ledger ρ) (db : IntMap ρ) : Prop where
  closed : ∀ j, j < l.parts.length →
    Holds key (log.take (base + (sizes.take j).sum)) (flush db (l.parts.take j))
  current : ∀ k r, Touched key log k → l.rows[k]? = some r → (flush db l.parts)[k]? = some r
  grown : ∀ (k : Int) (r : ρ), (lastRows log)[k]? = some r → l.rows[k]? = some r

variable {key : α → Option Int} {log : RowLog α ρ} {base : Nat} {sizes : List Nat}
  {l : Ledger ρ} {db : IntMap ρ}

@[simp] theorem touched_concat (e : α × IntMap ρ) (k : Int) :
    Touched key (log ++ [e]) k ↔ Touched key log k ∨ key e.1 = some k := by
  simp [Touched, or_and_right, exists_or]

@[simp] theorem lastRows_concat (e : α × IntMap ρ) : lastRows (log ++ [e]) = e.2 := by
  simp [lastRows]

theorem Tracks.init (key : α → Option Int) (rows db : IntMap ρ) :
    Tracks key [] 0 [0] ⟨rows, [∅]⟩ db where
  closed := by
    intro j _ k r htouched
    simp [Touched] at htouched
  current := by
    intro k r htouched
    simp [Touched] at htouched
  grown := by
    intro k r h
    simp [lastRows] at h

/-- What is stored is right for the part of the log that is stored. -/
theorem Tracks.holds (h : Tracks key log base sizes l db) (hparts : l.parts ≠ []) :
    Holds key (log.take base) db := by
  simpa using h.closed 0 (List.length_pos_iff.mpr hparts)

/-- Taking fewer partitions than there are never reaches past the log. -/
theorem base_add_take_le (hsum : base + sizes.sum = log.length) (j : Nat) :
    base + (sizes.take j).sum ≤ log.length := by
  have hsplit : (sizes.take j).sum + (sizes.drop j).sum = sizes.sum :=
    List.sum_take_add_sum_drop sizes j
  omega

/-- **An entry is logged.**  Either the row it is booked on changes, or there is
no such row. -/
theorem Tracks.add (h : Tracks key log base sizes l db) (hparts : l.parts ≠ [])
    (hlen : sizes.length = l.parts.length) (hsum : base + sizes.sum = log.length)
    {a : α} {l' : Ledger ρ}
    (hstep : (l' = l ∧ ∀ k, key a = some k → l.rows[k]? = none) ∨
      ∃ k r, key a = some k ∧ l' = l.put k r) :
    Tracks key (log ++ [(a, l'.rows)]) base (modifyLast (· + 1) sizes) l' db := by
  have hlength : l'.parts.length = l.parts.length := by
    rcases hstep with ⟨rfl, -⟩ | ⟨k, r, -, rfl⟩
    · rfl
    · exact Ledger.length_parts_put l k r
  have htake : ∀ j, j < l.parts.length → l'.parts.take j = l.parts.take j := by
    intro j hj
    rcases hstep with ⟨rfl, -⟩ | ⟨k, r, -, rfl⟩
    · rfl
    · exact take_modifyLast _ l.parts hj
  constructor
  case closed =>
    intro j hj
    rw [hlength] at hj
    have hj' : j < sizes.length := by omega
    rw [take_modifyLast _ _ hj', htake j hj,
      List.take_append_of_le_length (base_add_take_le hsum j)]
    exact h.closed j hj
  case current =>
    intro k r htouched hrow
    rw [touched_concat] at htouched
    rcases hstep with ⟨rfl, hnone⟩ | ⟨k', r', hkey, rfl⟩
    · rcases htouched with htouched | hk
      · exact h.current k r htouched hrow
      · rw [hnone k hk] at hrow
        exact absurd hrow (by simp)
    · rw [flush_put db l k' r' hparts]
      simp only [Ledger.put_rows, IntMap.getElem?_insert] at hrow ⊢
      split at hrow
      case isTrue heq => rw [if_pos heq]; exact hrow
      case isFalse hne =>
        rw [if_neg hne]
        refine h.current k r (htouched.resolve_right ?_) hrow
        intro hk
        exact hne (Option.some.inj (hkey.symm.trans hk))
  case grown =>
    intro k r hrow
    simpa using hrow

/-- **A fresh row is queued** by an operation that is not logged. -/
theorem Tracks.create (h : Tracks key log base sizes l db) (hparts : l.parts ≠ [])
    {k : Int} (r : ρ) (hfresh : l.rows[k]? = none) :
    Tracks key log base sizes (l.put k r) db := by
  constructor
  case closed =>
    intro j hj
    rw [Ledger.length_parts_put] at hj
    rw [Ledger.put, take_modifyLast _ _ hj]
    exact h.closed j hj
  case current =>
    intro k' r' htouched hrow
    rw [flush_put db l k r hparts]
    simp only [Ledger.put_rows, IntMap.getElem?_insert] at hrow ⊢
    split at hrow
    case isTrue heq => rw [if_pos heq]; exact hrow
    case isFalse hne => rw [if_neg hne]; exact h.current k' r' htouched hrow
  case grown =>
    intro k' r' hrow
    have hold := h.grown k' r' hrow
    have hne : k ≠ k' := by
      rintro rfl
      rw [hfresh] at hold
      exact absurd hold (by simp)
    rw [Ledger.put_rows, IntMap.getElem?_insert_of_ne _ hne]
    exact hold

/-- **A partition is opened.**  The log is cut at its end. -/
theorem Tracks.openPart (h : Tracks key log base sizes l db)
    (hlen : sizes.length = l.parts.length) (hsum : base + sizes.sum = log.length) :
    Tracks key log base (sizes ++ [0]) l.openPart db := by
  constructor
  case closed =>
    intro j hj
    rw [Ledger.length_parts_openPart] at hj
    have hsizes : (sizes ++ [0]).take j = sizes.take j :=
      List.take_append_of_le_length (by omega)
    have hparts : l.openPart.parts.take j = l.parts.take j :=
      List.take_append_of_le_length (by omega)
    rw [hsizes, hparts]
    by_cases hj' : j < l.parts.length
    · exact h.closed j hj'
    · -- the new cut: all of the log against all of the partitions
      have hjeq : j = l.parts.length := by omega
      rw [hjeq, List.take_length, ← hlen, List.take_length, hsum, List.take_length]
      intro k r htouched hrow
      exact h.current k r htouched (h.grown k r hrow)
  case current =>
    intro k r htouched hrow
    rw [flush_openPart]
    exact h.current k r htouched hrow
  case grown => exact h.grown

/-- **The first partition is written** to the database and dropped. -/
theorem Tracks.commit {part : IntMap ρ} {rest : List (IntMap ρ)} {size : Nat}
    {sizes : List Nat} {rows : IntMap ρ}
    (h : Tracks key log base (size :: sizes) ⟨rows, part :: rest⟩ db) :
    Tracks key log (base + size) sizes ⟨rows, rest⟩ (IntMap.upsert db part) := by
  constructor
  case closed =>
    intro j hj
    have hnext := h.closed (j + 1) (by simpa using hj)
    simpa [Nat.add_assoc] using hnext
  case current => exact h.current
  case grown => exact h.grown

/-! The same with a first partition that is written but not yet dropped. -/

theorem Tracks.pending_add {written : Bool}
    (h : Tracks key log base sizes (l.pending written) db)
    (hwritten : written.toNat < l.parts.length)
    (hlen : sizes.length = l.parts.length - written.toNat)
    (hsum : base + sizes.sum = log.length) {a : α} {l' : Ledger ρ}
    (hstep : (l' = l ∧ ∀ k, key a = some k → l.rows[k]? = none) ∨
      ∃ k r, key a = some k ∧ l' = l.put k r) :
    Tracks key (log ++ [(a, l'.rows)]) base (modifyLast (· + 1) sizes) (l'.pending written) db := by
  have hlength := l.length_parts_pending written
  rw [← l'.pending_rows written]
  refine h.add (List.ne_nil_of_length_pos (by omega)) (by omega) hsum ?_
  rcases hstep with ⟨rfl, hnone⟩ | ⟨k, r, hkey, rfl⟩
  · exact Or.inl ⟨rfl, by simpa using hnone⟩
  · exact Or.inr ⟨k, r, hkey, l.pending_put k r hwritten⟩

theorem Tracks.pending_create {written : Bool}
    (h : Tracks key log base sizes (l.pending written) db)
    (hwritten : written.toNat < l.parts.length) {k : Int} (r : ρ)
    (hfresh : l.rows[k]? = none) :
    Tracks key log base sizes ((l.put k r).pending written) db := by
  have hlength := l.length_parts_pending written
  rw [l.pending_put k r hwritten]
  exact h.create (List.ne_nil_of_length_pos (by omega)) r (by simpa using hfresh)

theorem Tracks.pending_openPart {written : Bool}
    (h : Tracks key log base sizes (l.pending written) db)
    (hwritten : written.toNat < l.parts.length)
    (hlen : sizes.length = l.parts.length - written.toNat)
    (hsum : base + sizes.sum = log.length) :
    Tracks key log base (sizes ++ [0]) (l.openPart.pending written) db := by
  have hlength := l.length_parts_pending written
  rw [l.pending_openPart hwritten]
  exact h.openPart (by omega) hsum

theorem Tracks.write {size : Nat} {sizes : List Nat} {part : IntMap ρ}
    (h : Tracks key log base (size :: sizes) (l.pending false) db)
    (hpart : l.parts.head? = some part) :
    Tracks key log (base + size) sizes (l.pending true) (IntMap.upsert db part) := by
  obtain ⟨rows, parts⟩ := l
  obtain ⟨rest, rfl⟩ : ∃ rest, parts = part :: rest := by
    cases parts with
    | nil => exact absurd hpart (by simp)
    | cons first rest => exact ⟨rest, by simpa using hpart⟩
  exact h.commit

end Tracks

end Lib
end VoipBill
