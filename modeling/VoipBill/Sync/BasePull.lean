import VoipBill.Model.BDb
import VoipBill.Sync.ManagerPull

/-!
# Copying a table

`BasePull::pull` replaces rows of a local table by the rows that the central database
selects now: all of them, or those with the collected keys.  It sends four statements,
`BEGIN`, the delete, the copy and `COMMIT`; the copy is tried once, the others are sent again
by `BDb::exec` when the connection is lost.

* `pullAll`: the statements one after another, each with the losses it meets;
* `pullAll_outcome`: what is in the table afterwards, whether `pull` returns or throws;
* `perm_selected_pulled`, `filter_pulled_of_not_copies`: the rows of one key.

A `COMMIT` that is lost with its connection is sent again outside of a transaction, where it
succeeds although the copy was rolled back: then `pull` returns and nothing was replaced.
-/

namespace VoipBill

open Lib

/-- The tables of a puller, as `init` describes them.  Rows have the columns of `fields`. -/
structure PullTable (ρ : Type) where
  /-- The column types are given, and the rows come over `dblink`. -/
  hasDatatype : Bool
  /-- `src_sql_where`; the empty condition holds of every row. -/
  srcSqlWhere : ρ → Bool
  /-- The value of the key column, as the literals of the queries write it. -/
  keyText : ρ → String
  /-- Every puller with a condition gives its column types. -/
  whereOnlyTyped : hasDatatype = true ∨ ∀ row, srcSqlWhere row = true

/-- The work of a pull: the delete, with the keys unless it is a full one, and the copy. -/
inductive PullWork (ρ : Type) where
  | delete (ids : Option (List String))
  | copy (rows : List ρ)

namespace PullTable

variable {ρ : Type} (t : PullTable ρ)

/-- `"key" in (..)`. -/
def keyIn (ids : List String) (row : ρ) : Bool := decide (t.keyText row ∈ ids)

def apply : PullWork ρ → List ρ → Option (List ρ)
  | .delete none, _ => some []
  | .delete (some ids), rows => some (rows.filter fun row => !t.keyIn ids row)
  | .copy copied, rows => some (rows ++ copied)

/-- The rows of the central table that the local one is meant to have. -/
def selected (src : List ρ) : List ρ := src.filter t.srcSqlWhere

/-- The rows of one key. -/
def rowsOf (id : String) (rows : List ρ) : List ρ := rows.filter fun row => decide (t.keyText row = id)

end PullTable

namespace BasePull

section Pull

variable {ρ : Type} (p : BasePull) (t : PullTable ρ)

/-- The keys of the delete. -/
def deletedIds : Option (List String) := if p.fullPull then none else some p.idsToPull

/-- The rows that `pullFull` and `pullPartial` select.  Without column types `pullFull` copies
the whole table. -/
def copiedRows (src : List ρ) : List ρ :=
  if p.fullPull then
    if t.hasDatatype then src.filter t.srcSqlWhere else src
  else src.filter fun row => t.keyIn p.idsToPull row && t.srcSqlWhere row

/-- The losses of the four statements, and of the `ROLLBACK` of the destructor. -/
structure PullDrops where
  begin : Drops
  delete : Drops
  copy : Bool
  commit : Drops
  rollback : Drops
deriving DecidableEq

/-- An exception after `BEGIN`: the destructor of the transaction sends `ROLLBACK`. -/
def rolledBack (db : BDb (List ρ)) (drops : PullDrops) : BDb (List ρ) × Bool :=
  ((db.exec t.apply .rollback drops.rollback).1, false)

/-- `pull`: the connection to the local database afterwards, and whether it returned. -/
def pullAll (src : List ρ) (db : BDb (List ρ)) (drops : PullDrops) : BDb (List ρ) × Bool :=
  if !p.needPull then (db, true)
  else
    match db.exec t.apply .begin drops.begin with
    | (db, false) => (db, false)
    | (db, true) =>
        match db.exec t.apply (.work (.delete p.deletedIds)) drops.delete with
        | (db, false) => rolledBack t db drops
        | (db, true) =>
            match db.attempt t.apply (.work (.copy (p.copiedRows t src))) drops.copy with
            | (db, false) => rolledBack t db drops
            | (db, true) =>
                match db.exec t.apply .commit drops.commit with
                | (db, true) => (db, true)
                | (db, false) => rolledBack t db drops

/-- The local table without the rows that are going to be replaced. -/
def kept (rows : List ρ) : List ρ :=
  if p.fullPull then [] else rows.filter fun row => !t.keyIn p.idsToPull row

/-- The local table after a pull that took effect. -/
def pulled (src rows : List ρ) : List ρ := p.kept t rows ++ p.copiedRows t src

/-- The transaction is open until `COMMIT`, which is lost with it. -/
def LosesCommit (drops : PullDrops) : Prop :=
  p.needPull = true ∧ drops.delete.first = false ∧ drops.commit.first = true

instance (drops : PullDrops) : Decidable (p.LosesCommit drops) :=
  inferInstanceAs (Decidable (_ ∧ _ ∧ _))

end Pull

/-! ## One pull -/

section Outcome

variable {ρ : Type} {p : BasePull} {t : PullTable ρ}

/-- A connection outside of a transaction. -/
def auto (rows : List ρ) (connected : Bool) : BDb (List ρ) := ⟨⟨rows, none⟩, connected⟩

/-- A connection inside a transaction. -/
def inTransaction (rows working : List ρ) : BDb (List ρ) := ⟨⟨rows, some working⟩, true⟩

theorem apply_delete (p : BasePull) (t : PullTable ρ) (rows : List ρ) :
    t.apply (.delete p.deletedIds) rows = some (p.kept t rows) := by
  unfold deletedIds kept
  cases p.fullPull with
  | true => rfl
  | false => rfl

theorem attempt_work_auto {w : PullWork ρ} {rows rows' : List ρ} (h : t.apply w rows = some rows')
    (connected : Bool) : (auto rows connected).attempt t.apply (.work w) false =
      (auto rows' true, true) := by
  simp [BDb.attempt, auto, Session.execute, h]

theorem attempt_lost (db : BDb (List ρ)) (statement : Sql (PullWork ρ)) :
    db.attempt t.apply statement true = (auto db.durable false, false) := rfl

/-- Work inside the transaction; if the connection is lost, the statement is sent again and
takes effect at once. -/
theorem exec_work_inTransaction {w : PullWork ρ} {rows working rows' working' : List ρ}
    (h : t.apply w rows = some rows') (hworking : t.apply w working = some working')
    (drops : Drops) :
    (inTransaction rows working).exec t.apply (.work w) drops =
      if drops.first then
        if drops.again then (auto rows false, false) else (auto rows' true, true)
      else (inTransaction rows working', true) := by
  obtain ⟨first, again⟩ := drops
  cases first with
  | false => simp [BDb.exec, BDb.attempt, inTransaction, Session.execute, hworking]
  | true =>
      have hagain : (inTransaction rows working).exec t.apply (.work w) ⟨true, again⟩ =
          (auto rows false).attempt t.apply (.work w) again := rfl
      rw [hagain]
      cases again with
      | true => rfl
      | false => exact attempt_work_auto h false

theorem exec_commit_inTransaction (rows working : List ρ) (drops : Drops) :
    (inTransaction rows working).exec t.apply .commit drops =
      if drops.first then (auto rows (!drops.again), !drops.again)
      else (auto working true, true) := by
  obtain ⟨first, again⟩ := drops
  cases first with
  | false => rfl
  | true =>
      cases again with
      | true => rfl
      | false => rfl

theorem exec_commit_auto (rows : List ρ) (drops : Drops) :
    (auto rows true).exec t.apply .commit drops =
      (auto rows (!(drops.first && drops.again)), !(drops.first && drops.again)) := by
  obtain ⟨first, again⟩ := drops
  cases first with
  | false => rfl
  | true =>
      cases again with
      | true => rfl
      | false => rfl

theorem exec_begin (rows : List ρ) (connected : Bool) (drops : Drops) :
    (auto rows connected).exec t.apply .begin drops = (inTransaction rows rows, true) ∨
      (auto rows connected).exec t.apply .begin drops = (auto rows false, false) := by
  obtain ⟨first, again⟩ := drops
  cases first with
  | false => exact Or.inl rfl
  | true =>
      cases connected with
      | false => exact Or.inr rfl
      | true =>
          cases again with
          | true => exact Or.inr rfl
          | false => exact Or.inl rfl

/-- Outside of a transaction a `ROLLBACK` changes nothing. -/
theorem rolledBack_auto (rows : List ρ) (connected : Bool) (drops : PullDrops) :
    ∃ connected', rolledBack t (auto rows connected) drops = (auto rows connected', false) := by
  obtain ⟨-, -, -, -, ⟨first, again⟩⟩ := drops
  cases first with
  | false => exact ⟨true, rfl⟩
  | true =>
      cases connected with
      | false => exact ⟨false, rfl⟩
      | true =>
          cases again with
          | true => exact ⟨false, rfl⟩
          | false => exact ⟨true, rfl⟩

/-- How a pull ends, case by case: the state of the table and whether `pull` returned. -/
inductive Outcome (p : BasePull) (t : PullTable ρ) (src rows : List ρ) (drops : PullDrops) :
    List ρ → Bool → Prop where
  /-- All rows are replaced. -/
  | replaced (h : ¬ p.LosesCommit drops) : Outcome p t src rows drops (p.pulled t src rows) true
  /-- The transaction is gone, and nothing tells `pull`. -/
  | silent (h : p.LosesCommit drops) : Outcome p t src rows drops rows true
  /-- There was nothing to pull. -/
  | idle (h : p.needPull = false) : Outcome p t src rows drops rows true
  | unchanged : Outcome p t src rows drops rows false
  /-- The delete took effect by itself, outside of a transaction. -/
  | deleted (h : drops.delete.first = true) : Outcome p t src rows drops (p.kept t rows) false
  /-- So did the copy, and `COMMIT` gets no answer. -/
  | unanswered (h : drops.delete.first = true) :
      Outcome p t src rows drops (p.pulled t src rows) false

/-- What a pull leaves: no open transaction, and a table with one of the outcomes. -/
theorem pullAll_outcome (p : BasePull) (t : PullTable ρ) (src rows : List ρ) (connected : Bool)
    (drops : PullDrops) :
    ∃ rows' connected' returned,
      p.pullAll t src (auto rows connected) drops = (auto rows' connected', returned) ∧
        Outcome p t src rows drops rows' returned := by
  have hcopy : ∀ working : List ρ, t.apply (.copy (p.copiedRows t src)) working =
      some (working ++ p.copiedRows t src) := fun _ => rfl
  unfold pullAll
  cases hneed : p.needPull with
  | false => exact ⟨rows, connected, true, rfl, .idle hneed⟩
  | true =>
      rw [Bool.not_true, if_neg Bool.false_ne_true]
      rcases exec_begin (t := t) rows connected drops.begin with hbegin | hbegin
      · rw [hbegin]
        dsimp only
        rw [exec_work_inTransaction (apply_delete p t rows) (apply_delete p t rows)]
        cases hdelete : drops.delete.first with
        | false =>
            -- the delete runs inside the transaction
            rw [if_neg Bool.false_ne_true]
            dsimp only
            cases hlost : drops.copy with
            | true =>
                rw [attempt_lost]
                obtain ⟨connected', hback⟩ := rolledBack_auto (t := t) rows false drops
                exact ⟨rows, connected', false, hback, .unchanged⟩
            | false =>
                have hattempt : (inTransaction rows (p.kept t rows)).attempt t.apply
                    (.work (.copy (p.copiedRows t src))) false =
                      (inTransaction rows (p.pulled t src rows), true) := rfl
                rw [hattempt]
                dsimp only
                rw [exec_commit_inTransaction]
                cases hcommit : drops.commit.first with
                | false =>
                    have hnot : ¬ p.LosesCommit drops := fun h => by
                      have hlost := h.2.2
                      rw [hcommit] at hlost
                      exact absurd hlost Bool.false_ne_true
                    exact ⟨_, true, true, rfl, .replaced hnot⟩
                | true =>
                    rw [if_pos rfl]
                    cases drops.commit.again with
                    | false => exact ⟨rows, true, true, rfl, .silent ⟨hneed, hdelete, hcommit⟩⟩
                    | true =>
                        obtain ⟨connected', hback⟩ := rolledBack_auto (t := t) rows false drops
                        exact ⟨rows, connected', false, hback, .unchanged⟩
        | true =>
            rw [if_pos rfl]
            cases drops.delete.again with
            | true =>
                obtain ⟨connected', hback⟩ := rolledBack_auto (t := t) rows false drops
                exact ⟨rows, connected', false, hback, .unchanged⟩
            | false =>
                -- from here on every statement takes effect at once
                rw [if_neg Bool.false_ne_true]
                dsimp only
                cases hlost : drops.copy with
                | true =>
                    rw [attempt_lost]
                    obtain ⟨connected', hback⟩ :=
                      rolledBack_auto (t := t) (p.kept t rows) false drops
                    exact ⟨_, connected', false, hback, .deleted hdelete⟩
                | false =>
                    rw [attempt_work_auto (hcopy _)]
                    dsimp only
                    rw [exec_commit_auto]
                    cases drops.commit.first && drops.commit.again with
                    | false =>
                        have hnot : ¬ p.LosesCommit drops := fun h => by
                          have hkept := h.2.1
                          rw [hdelete] at hkept
                          exact absurd hkept.symm Bool.false_ne_true
                        exact ⟨_, true, true, rfl, .replaced hnot⟩
                    | true =>
                        obtain ⟨connected', hback⟩ :=
                          rolledBack_auto (t := t) (p.pulled t src rows) false drops
                        exact ⟨_, connected', false, hback, .unanswered hdelete⟩
      · rw [hbegin]
        exact ⟨rows, false, false, rfl, .unchanged⟩

/-! ## The rows of one key -/

theorem rowsOf_append (t : PullTable ρ) (id : String) (rows rows' : List ρ) :
    t.rowsOf id (rows ++ rows') = t.rowsOf id rows ++ t.rowsOf id rows' := by
  unfold PullTable.rowsOf
  rw [List.filter_append]

/-- The rows of a key that is pulled are all deleted. -/
theorem rowsOf_kept_of_copies {id : String} (h : p.Copies id) (rows : List ρ) :
    t.rowsOf id (p.kept t rows) = [] := by
  obtain ⟨-, hcopies⟩ := h
  unfold kept
  split
  case isTrue => rfl
  case isFalse hnotFull =>
    have hid : id ∈ p.idsToPull := hcopies.resolve_left hnotFull
    refine List.filter_eq_nil_iff.mpr fun row hrow hkey => ?_
    rw [decide_eq_true_eq] at hkey
    have hout := (List.mem_filter.mp hrow).2
    rw [PullTable.keyIn, hkey, decide_eq_true hid] at hout
    exact absurd hout Bool.false_ne_true

theorem rowsOf_copiedRows_of_copies {id : String} (h : p.Copies id) (src : List ρ) :
    t.rowsOf id (p.copiedRows t src) = t.rowsOf id (t.selected src) := by
  obtain ⟨-, hcopies⟩ := h
  unfold copiedRows
  split
  case isTrue =>
    split
    case isTrue => rfl
    case isFalse htyped =>
      have hall := t.whereOnlyTyped.resolve_left htyped
      rw [PullTable.selected, List.filter_eq_self.mpr fun row _ => hall row]
  case isFalse hnotFull =>
    have hid : id ∈ p.idsToPull := hcopies.resolve_left hnotFull
    unfold PullTable.rowsOf PullTable.selected
    rw [List.filter_filter, List.filter_filter]
    refine List.filter_congr fun row _ => ?_
    by_cases hkey : t.keyText row = id
    · simp [PullTable.keyIn, hkey, hid]
    · simp [hkey]

/-- The rows of a pulled key are those the source selects. -/
theorem rowsOf_pulled_of_copies {id : String} (h : p.Copies id) (src rows : List ρ) :
    t.rowsOf id (p.pulled t src rows) = t.rowsOf id (t.selected src) := by
  rw [pulled, rowsOf_append, rowsOf_kept_of_copies h, rowsOf_copiedRows_of_copies h,
    List.nil_append]

theorem not_full_of_not_copies {id : String} (hneed : p.needPull = true) (h : ¬ p.Copies id) :
    p.fullPull = false ∧ id ∉ p.idsToPull := by
  constructor
  · cases hfull : p.fullPull with
    | false => rfl
    | true => exact absurd ⟨hneed, Or.inl hfull⟩ h
  · exact fun hid => h ⟨hneed, Or.inr hid⟩

/-- The rows of other keys stay. -/
theorem rowsOf_kept_of_not_copies {id : String} (hneed : p.needPull = true) (h : ¬ p.Copies id)
    (rows : List ρ) : t.rowsOf id (p.kept t rows) = t.rowsOf id rows := by
  obtain ⟨hnotFull, hid⟩ := not_full_of_not_copies hneed h
  unfold kept PullTable.rowsOf
  rw [hnotFull, if_neg Bool.false_ne_true, List.filter_filter]
  refine List.filter_congr fun row _ => ?_
  by_cases hkey : t.keyText row = id
  · simp [PullTable.keyIn, hkey, hid]
  · simp [hkey]

theorem rowsOf_pulled_of_not_copies {id : String} (hneed : p.needPull = true)
    (h : ¬ p.Copies id) (src rows : List ρ) :
    t.rowsOf id (p.pulled t src rows) = t.rowsOf id rows := by
  obtain ⟨hnotFull, hid⟩ := not_full_of_not_copies hneed h
  have hcopied : t.rowsOf id (p.copiedRows t src) = [] := by
    unfold copiedRows
    rw [hnotFull, if_neg Bool.false_ne_true]
    refine List.filter_eq_nil_iff.mpr fun row hrow hkey => hid ?_
    rw [decide_eq_true_eq] at hkey
    have hin := (List.mem_filter.mp hrow).2
    rw [Bool.and_eq_true, PullTable.keyIn, decide_eq_true_eq, hkey] at hin
    exact hin.1
  rw [pulled, rowsOf_append, rowsOf_kept_of_not_copies hneed h, hcopied, List.append_nil]

/-- **What a pull does to the rows of a key.**  Other keys keep their rows, however the
connection is lost; the rows of a collected key are replaced if `pull` returns, unless the
transaction is lost at its `COMMIT`, where nothing changes; if `pull` throws, they are as
before, gone, or replaced. -/
theorem rows_after_pull (p : BasePull) (t : PullTable ρ) (src rows : List ρ) (connected : Bool)
    (drops : PullDrops) (id : String) :
    let result := p.pullAll t src (auto rows connected) drops
    result.1.working = none ∧
    (¬ p.Copies id → t.rowsOf id result.1.durable = t.rowsOf id rows) ∧
    (p.Copies id → result.2 = true → t.rowsOf id result.1.durable =
      t.rowsOf id (if p.LosesCommit drops then rows else t.selected src)) ∧
    (p.Copies id → result.2 = false → t.rowsOf id result.1.durable = t.rowsOf id rows ∨
      drops.delete.first = true ∧ (t.rowsOf id result.1.durable = [] ∨
        t.rowsOf id result.1.durable = t.rowsOf id (t.selected src))) := by
  obtain ⟨rows', connected', returned, heq, houtcome⟩ :=
    pullAll_outcome p t src rows connected drops
  intro result
  have hdurable : result.1.durable = rows' := congrArg (fun r => r.1.durable) heq
  have hworking : result.1.working = none := congrArg (fun r => r.1.working) heq
  have hreturned : result.2 = returned := congrArg Prod.snd heq
  rw [hdurable, hreturned]
  refine ⟨hworking, fun hnot => ?_, fun hcopies hreturns => ?_, fun hcopies hthrows => ?_⟩
  · cases hneed : p.needPull with
    | false =>
        -- nothing is sent
        have hidle : p.pullAll t src (auto rows connected) drops = (auto rows connected, true) := by
          unfold pullAll
          rw [hneed]
          rfl
        rw [hidle] at heq
        have hrows : rows = rows' := congrArg (fun r => r.1.durable) heq
        rw [hrows]
    | true =>
        cases houtcome with
        | replaced => exact rowsOf_pulled_of_not_copies hneed hnot src rows
        | silent => rfl
        | idle => rfl
        | unchanged => rfl
        | deleted => exact rowsOf_kept_of_not_copies hneed hnot rows
        | unanswered => exact rowsOf_pulled_of_not_copies hneed hnot src rows
  · subst hreturns
    cases houtcome with
    | replaced hkept => rw [if_neg hkept, rowsOf_pulled_of_copies hcopies]
    | silent hlost => rw [if_pos hlost]
    | idle hneed =>
        have hneeded := hcopies.1
        rw [hneed] at hneeded
        exact absurd hneeded Bool.false_ne_true
  · subst hthrows
    cases houtcome with
    | unchanged => exact Or.inl rfl
    | deleted hlost => exact Or.inr ⟨hlost, Or.inl (rowsOf_kept_of_copies hcopies rows)⟩
    | unanswered hlost => exact Or.inr ⟨hlost, Or.inr (rowsOf_pulled_of_copies hcopies src rows)⟩

end Outcome

end BasePull
end VoipBill
