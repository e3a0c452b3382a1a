import VoipBill.Model.BDb
import VoipBill.Model.DataBillingContainer

/-!
# Saving over a connection that may be lost

`DataBillingContainer::save` as the sequence of statements it sends, each of
which may lose its connection during its first and during its second attempt.
The database is the list of rows that were inserted, together with the month
tables of `calls_raw` that exist.

`BDb::exec` sends a lost statement again in a new session.  The transaction was
rolled back with the old one, and nothing tells `save`: from then on statements
take effect one by one, and the final `COMMIT` succeeds without a transaction.
`save_atomic_iff` says exactly for which losses the save is atomic nevertheless.
-/

namespace VoipBill

open Lib

namespace ConnectionLoss

/-- A row with the table it is inserted into. -/
inductive StoredRow where
  | call (row : Call)
  | statsAccount (row : StatsAccount)
  | statsFreemin (row : StatsFreemin)
  | statsPackage (row : StatsPackage)
  | statsTrunkSettings (row : StatsTrunkSettings)
  | statsNNPPackageMinute (row : StatsNNPPackageMinute)
deriving DecidableEq

/-- Month tables that exist, and all rows inserted so far. -/
structure SaveDb where
  months : List Int
  rows : List StoredRow
deriving DecidableEq

/-- What a statement of `save` does; `month` names a table of `calls_raw`. -/
inductive SaveWork where
  | createCallsRaw (month : Int)
  | insert (month : Option Int) (rows : List StoredRow)
deriving DecidableEq

def SaveWork.apply : SaveWork → SaveDb → Option SaveDb
  | .createCallsRaw month, db => some { db with months := db.months ++ [month] }
  | .insert none rows, db => some { db with rows := db.rows ++ rows }
  | .insert (some month) rows, db =>
      if month ∈ db.months then some { db with rows := db.rows ++ rows } else none

/-- A counter table is written only when it has queued rows. -/
def insertStats {ρ : Type} (row : ρ → StoredRow) (part : IntMap ρ) : List SaveWork :=
  if part.isEmpty then [] else [.insert none (part.toList.map fun entry => row entry.2)]

/-- The statements between `BEGIN` and `COMMIT`, in the order `save` sends them. -/
def saveWorks (d : DataBillingContainer) : List SaveWork :=
  d.calls.prepareSaveQueries.2.map .createCallsRaw ++
    (d.calls.prepareSaveQueries.1.toList.map fun query =>
      .insert (some query.1) (query.2.map .call)) ++
    insertStats .statsAccount (d.statsAccount.parts.headD ∅) ++
    insertStats .statsFreemin (d.statsFreemin.parts.headD ∅) ++
    insertStats .statsPackage (d.statsPackage.parts.headD ∅) ++
    insertStats .statsTrunkSettings (d.statsTrunkSettings.parts.headD ∅) ++
    insertStats .statsNNPPackageMinute (d.statsNNPPackageMinute.parts.headD ∅)

/-- A statement with the losses it meets. -/
abbrev Sent : Type := Sql SaveWork × Drops

/-- The statements after `BEGIN`; statement `i` meets the losses `drops i`. -/
def saveScript (d : DataBillingContainer) (drops : Nat → Drops) : List Sent :=
  ((saveWorks d).map Sql.work ++ [Sql.commit]).mapIdx fun i statement => (statement, drops (i + 1))

/-- How `save` ends: whether it returned, the container and the connection. -/
structure SaveResult where
  returned : Bool
  data : DataBillingContainer
  db : BDb SaveDb

/-- `save`, statement by statement.  An exception after `BEGIN` sends `ROLLBACK`
from the destructor of the transaction, whose own failure is swallowed. -/
def save (d : DataBillingContainer) (db : BDb SaveDb) (drops : Nat → Drops) : SaveResult :=
  match d.saveStart with
  | none => ⟨true, d, db⟩
  | some d =>
      match db.exec SaveWork.apply .begin (drops 0) with
      | (db, false) => ⟨false, d, db⟩
      | (db, true) =>
          let script := saveScript d drops
          match db.execAll SaveWork.apply script with
          | (db, true) => ⟨true, d.removePartitionAfterSave, db⟩
          | (db, false) =>
              ⟨false, d, (db.exec SaveWork.apply .rollback (drops (script.length + 1))).1⟩

/-! ## What an atomic save is -/

/-- Rows of one counter partition. -/
def statsRows {ρ : Type} (row : ρ → StoredRow) (part : IntMap ρ) : List StoredRow :=
  part.toList.map fun entry => row entry.2

/-- The calls and the counter rows of partition 0. -/
def queuedRows (d : DataBillingContainer) : List StoredRow :=
  (d.calls.realtimeCallsParts.headD []).map .call ++
    statsRows .statsAccount (d.statsAccount.parts.headD ∅) ++
    statsRows .statsFreemin (d.statsFreemin.parts.headD ∅) ++
    statsRows .statsPackage (d.statsPackage.parts.headD ∅) ++
    statsRows .statsTrunkSettings (d.statsTrunkSettings.parts.headD ∅) ++
    statsRows .statsNNPPackageMinute (d.statsNNPPackageMinute.parts.headD ∅)

/-- A save that returns has stored all rows of partition 0, and one that throws
has stored none of them and keeps the partition queued. -/
def SaveAtomic (d : DataBillingContainer) (before : SaveDb) (result : SaveResult) : Prop :=
  (result.returned = true →
    result.db.durable.rows.Perm (before.rows ++ queuedRows d)) ∧
  (result.returned = false →
    result.db.durable.rows = before.rows ∧ queuedRows result.data = queuedRows d)

/-! ## The losses a save survives -/

/-- The month a statement creates a table for. -/
def createdMonth : Sql SaveWork → Option Int
  | .work (.createCallsRaw month) => some month
  | _ => none

/-- The rows a statement inserts. -/
def insertedRows : Sql SaveWork → List StoredRow
  | .work (.insert _ rows) => rows
  | _ => []

def isInsert : Sql SaveWork → Bool
  | .work (.insert _ _) => true
  | _ => false

def created (sent : List Sent) : List Int := sent.filterMap fun x => createdMonth x.1

def rowsOf (sent : List Sent) : List StoredRow := sent.flatMap fun x => insertedRows x.1

/-- An insert into the table of a month that does not exist. -/
def Missing (months : List Int) (x : Sent) : Prop :=
  ∃ month rows, x.1 = .work (.insert (some month) rows) ∧ month ∉ months

/-- Both attempts are lost, or the table of the month does not exist. -/
def StopsAt (months : List Int) (x : Sent) : Prop :=
  (x.2.first = true ∧ x.2.again = true) ∨ Missing months x

/-- `BEGIN` gets no answer; there is a second attempt only on an open connection. -/
def BeginFails (connected : Bool) (drops : Drops) : Prop :=
  drops.first = true ∧ (connected = true → drops.again = true)

/-- The statements after `BEGIN` meet no harmful loss: at the first lost
statement `x`, either the retry does not help and the save stops; or nothing was
inserted before and no later statement stops the save; or a later statement
stops it before anything is inserted. -/
def ScriptSafe (months : List Int) (script : List Sent) : Prop :=
  ∀ pre x post, script = pre ++ x :: post → (∀ y ∈ pre, y.2.first = false) →
    x.2.first = true →
    StopsAt months x ∨
    ((∀ y ∈ pre, isInsert y.1 = false) ∧
      ∀ mid y rest, post = mid ++ y :: rest → ¬ StopsAt (months ++ created (x :: mid)) y) ∨
    ∃ mid y rest, post = mid ++ y :: rest ∧ StopsAt (months ++ created (x :: mid)) y ∧
      ∀ z ∈ x :: mid, isInsert z.1 = false

/-- The whole condition.  A save that is skipped must not leave counter rows. -/
def LossesHarmless (d : DataBillingContainer) (db : BDb SaveDb) (drops : Nat → Drops) : Prop :=
  match d.saveStart with
  | none => queuedRows d = []
  | some d => BeginFails db.connected (drops 0) ∨
      ScriptSafe db.durable.months (saveScript d drops)

/-! ## One statement -/

/-- Statements that `save` sends after `BEGIN`. -/
def Sent.inScript (x : Sent) : Prop := x.1 = .commit ∨ ∃ w, x.1 = .work w

/-- The database after statements that all took effect. -/
def effects (db : SaveDb) (sent : List Sent) : SaveDb where
  months := db.months ++ created sent
  rows := db.rows ++ rowsOf sent

theorem created_append (xs ys : List Sent) : created (xs ++ ys) = created xs ++ created ys :=
  List.filterMap_append

theorem rowsOf_append (xs ys : List Sent) : rowsOf (xs ++ ys) = rowsOf xs ++ rowsOf ys :=
  List.flatMap_append

@[simp] theorem effects_nil (db : SaveDb) : effects db [] = db := by
  simp [effects, created, rowsOf]

theorem effects_cons (db : SaveDb) (x : Sent) (xs : List Sent) :
    effects db (x :: xs) = effects (effects db [x]) xs := by
  have hcreated := created_append [x] xs
  have hrows := rowsOf_append [x] xs
  rw [List.singleton_append] at hcreated hrows
  simp [effects, hcreated, hrows]

/-- A connection outside of a transaction. -/
def auto (db : SaveDb) (connected : Bool) : BDb SaveDb := ⟨⟨db, none⟩, connected⟩

/-- A connection inside a transaction. -/
def inTransaction (db working : SaveDb) : BDb SaveDb := ⟨⟨db, some working⟩, true⟩

theorem apply_work_eq_some {w : SaveWork} {db : SaveDb} {drops : Drops}
    (h : ¬ Missing db.months (.work w, drops)) :
    w.apply db = some (effects db [(.work w, drops)]) := by
  match w with
  | .createCallsRaw month => simp [SaveWork.apply, effects, created, rowsOf, createdMonth, insertedRows]
  | .insert none rows => simp [SaveWork.apply, effects, created, rowsOf, createdMonth, insertedRows]
  | .insert (some month) rows =>
      have hmonth : month ∈ db.months := by
        by_contra hnot
        exact h ⟨month, rows, rfl, hnot⟩
      simp [SaveWork.apply, effects, created, rowsOf, createdMonth, insertedRows, hmonth]

theorem apply_work_eq_none {w : SaveWork} {db : SaveDb} {drops : Drops}
    (h : Missing db.months (.work w, drops)) : w.apply db = none := by
  obtain ⟨month, rows, heq, hnot⟩ := h
  cases heq
  simp [SaveWork.apply, hnot]

/-- An attempt outside of a transaction takes effect unless it is lost or has no
table to insert into. -/
theorem attempt_auto (db : SaveDb) (connected dropped : Bool) {x : Sent} (hx : x.inScript) :
    ((dropped = true ∨ Missing db.months x) ∧
      (auto db connected).attempt SaveWork.apply x.1 dropped = (auto db false, false)) ∨
    (dropped = false ∧ ¬ Missing db.months x ∧
      (auto db connected).attempt SaveWork.apply x.1 dropped = (auto (effects db [x]) true, true)) := by
  cases dropped with
  | true => exact Or.inl ⟨Or.inl rfl, rfl⟩
  | false =>
      obtain ⟨statement, drops⟩ := x
      obtain rfl | ⟨w, rfl⟩ : statement = .commit ∨ ∃ w, statement = .work w := hx
      · refine Or.inr ⟨rfl, ?_, ?_⟩
        · rintro ⟨month, rows, heq, -⟩
          exact absurd heq (by simp)
        · simp [BDb.attempt, auto, Session.execute, effects, created, rowsOf, createdMonth,
            insertedRows]
      · by_cases hmissing : Missing db.months (.work w, drops)
        · refine Or.inl ⟨Or.inr hmissing, ?_⟩
          simp [BDb.attempt, auto, Session.execute, apply_work_eq_none hmissing,
            BDb.disconnect, Session.lose]
        · refine Or.inr ⟨rfl, hmissing, ?_⟩
          simp [BDb.attempt, auto, Session.execute, apply_work_eq_some hmissing]

/-- Outside of a transaction a statement either stops the save without effect
or takes effect at once. -/
theorem exec_auto (db : SaveDb) {x : Sent} (hx : x.inScript) :
    (StopsAt db.months x ∧
      (auto db true).exec SaveWork.apply x.1 x.2 = (auto db false, false)) ∨
    (¬ StopsAt db.months x ∧
      (auto db true).exec SaveWork.apply x.1 x.2 = (auto (effects db [x]) true, true)) := by
  have hconnected : (auto db true).connected = true := rfl
  rcases attempt_auto db true x.2.first hx with ⟨hfirst, heq⟩ | ⟨hfirst, hmissing, heq⟩
  · rcases attempt_auto db false x.2.again hx with ⟨hagain, heq'⟩ | ⟨hagain, hmissing, heq'⟩
    · left
      refine ⟨?_, by simp [BDb.exec, heq, hconnected, heq']⟩
      rcases hfirst with hfirst | hmissing
      · rcases hagain with hagain | hmissing
        · exact Or.inl ⟨hfirst, hagain⟩
        · exact Or.inr hmissing
      · exact Or.inr hmissing
    · right
      refine ⟨?_, by simp [BDb.exec, heq, hconnected, heq']⟩
      rintro (⟨-, hlost⟩ | hmissing')
      · rw [hagain] at hlost
        exact absurd hlost (by simp)
      · exact hmissing hmissing'
  · right
    refine ⟨?_, by simp [BDb.exec, heq]⟩
    rintro (⟨hlost, -⟩ | hmissing')
    · rw [hfirst] at hlost
      exact absurd hlost (by simp)
    · exact hmissing hmissing'

/-- A statement that loses the connection of a transaction is sent again
outside of it. -/
theorem exec_lost (db working : SaveDb) {x : Sent} (hx : x.inScript) (hlost : x.2.first = true) :
    (StopsAt db.months x ∧
      (inTransaction db working).exec SaveWork.apply x.1 x.2 = (auto db false, false)) ∨
    (¬ StopsAt db.months x ∧
      (inTransaction db working).exec SaveWork.apply x.1 x.2 =
        (auto (effects db [x]) true, true)) := by
  have hfirst : (inTransaction db working).exec SaveWork.apply x.1 x.2 =
      (auto db false).attempt SaveWork.apply x.1 x.2.again := by
    simp [BDb.exec, BDb.attempt, hlost, inTransaction, BDb.disconnect, Session.lose, auto]
  rw [hfirst]
  rcases attempt_auto db false x.2.again hx with ⟨hagain, heq⟩ | ⟨hagain, hmissing, heq⟩
  · refine Or.inl ⟨?_, heq⟩
    rcases hagain with hagain | hmissing
    · exact Or.inl ⟨hlost, hagain⟩
    · exact Or.inr hmissing
  · refine Or.inr ⟨?_, heq⟩
    rintro (⟨-, hagain'⟩ | hmissing')
    · rw [hagain] at hagain'
      exact absurd hagain' (by simp)
    · exact hmissing hmissing'

/-- A statement whose connection holds works on the copy of the transaction. -/
theorem exec_inTransaction (db working : SaveDb) (w : SaveWork) {drops : Drops}
    (hfirst : drops.first = false) (hmissing : ¬ Missing working.months (.work w, drops)) :
    (inTransaction db working).exec SaveWork.apply (.work w) drops =
      (inTransaction db (effects working [(.work w, drops)]), true) := by
  simp [BDb.exec, BDb.attempt, hfirst, inTransaction, Session.execute,
    apply_work_eq_some hmissing]

/-! ## All statements -/

/-- Outside of a transaction the statements take effect up to the first one that
stops the save. -/
theorem execAll_auto (script : List Sent) (db : SaveDb) (hscript : ∀ x ∈ script, x.inScript) :
    ((∀ mid y rest, script = mid ++ y :: rest → ¬ StopsAt (db.months ++ created mid) y) ∧
      (auto db true).execAll SaveWork.apply script = (auto (effects db script) true, true)) ∨
    ∃ mid y rest, script = mid ++ y :: rest ∧ StopsAt (db.months ++ created mid) y ∧
      (∀ mid' y' rest', script = mid' ++ y' :: rest' →
        StopsAt (db.months ++ created mid') y' → mid.length ≤ mid'.length) ∧
      (auto db true).execAll SaveWork.apply script = (auto (effects db mid) false, false) := by
  induction script generalizing db with
  | nil => exact Or.inl ⟨by simp, by simp [BDb.execAll]⟩
  | cons x script ih =>
      have hx := hscript x List.mem_cons_self
      have hrest : ∀ y ∈ script, y.inScript := fun y hy => hscript y (List.mem_cons_of_mem x hy)
      -- either the first statement stops the script, or what stops the rest does
      rcases exec_auto db hx with ⟨hstops, heq⟩ | ⟨hruns, heq⟩
      · refine Or.inr ⟨[], x, script, rfl, by simpa [created] using hstops, by simp, ?_⟩
        simp [BDb.execAll, heq]
      · have hmonths : ∀ mid, db.months ++ created (x :: mid) =
            (effects db [x]).months ++ created mid := by
          intro mid
          rw [← List.singleton_append, created_append]
          simp [effects]
        rcases ih (effects db [x]) hrest with ⟨hall, hrun⟩ | ⟨mid, y, rest, hsplit, hstop, hleast, hrun⟩
        · left
          constructor
          · intro mid y rest hsplit
            cases mid with
            | nil =>
                rw [List.nil_append, List.cons.injEq] at hsplit
                rw [← hsplit.1]
                simpa [created] using hruns
            | cons z mid =>
                rw [List.cons_append, List.cons.injEq] at hsplit
                rw [← hsplit.1, hmonths]
                exact hall mid y rest hsplit.2
          · simp [BDb.execAll, heq, hrun, ← effects_cons]
        · right
          refine ⟨x :: mid, y, rest, by rw [hsplit, List.cons_append], ?_, ?_, ?_⟩
          · rw [hmonths]
            exact hstop
          · intro mid' y' rest' hsplit' hstop'
            cases mid' with
            | nil =>
                rw [List.nil_append, List.cons.injEq] at hsplit'
                rw [← hsplit'.1] at hstop'
                exact absurd (by simpa [created] using hstop') hruns
            | cons z mid' =>
                rw [List.cons_append, List.cons.injEq] at hsplit'
                rw [← hsplit'.1, hmonths] at hstop'
                simpa using hleast mid' y' rest' hsplit'.2 hstop'
          · simp [BDb.execAll, heq, hrun, ← effects_cons]

/-- Inside the transaction the statements work on its copy. -/
theorem execAll_inTransaction (pre post : List Sent) (db working : SaveDb)
    (hwork : ∀ x ∈ pre, ∃ w, x.1 = .work w) (hfirst : ∀ x ∈ pre, x.2.first = false)
    (hcovered : ∀ mid y rest, pre = mid ++ y :: rest →
      ¬ Missing (working.months ++ created mid) y) :
    (inTransaction db working).execAll SaveWork.apply (pre ++ post) =
      (inTransaction db (effects working pre)).execAll SaveWork.apply post := by
  induction pre generalizing working with
  | nil => simp
  | cons x pre ih =>
      obtain ⟨statement, drops⟩ := x
      obtain ⟨w, rfl⟩ : ∃ w, statement = .work w := hwork _ List.mem_cons_self
      have hmissing : ¬ Missing working.months (.work w, drops) := by
        simpa [created] using hcovered [] (.work w, drops) pre rfl
      have hexec := exec_inTransaction db working w (hfirst _ List.mem_cons_self) hmissing
      have htail := ih (effects working [(.work w, drops)])
        (fun y hy => hwork y (List.mem_cons_of_mem _ hy))
        (fun y hy => hfirst y (List.mem_cons_of_mem _ hy)) (by
          intro mid y rest hsplit
          have := hcovered ((.work w, drops) :: mid) y rest (by rw [hsplit, List.cons_append])
          rw [← List.singleton_append, created_append] at this
          simpa [effects] using this)
      rw [List.cons_append, BDb.execAll, hexec]
      simp only [htail, effects_cons working (.work w, drops) pre]

/-! ## The statements of a container -/

theorem saveScript_statements (d : DataBillingContainer) (drops : Nat → Drops) :
    (saveScript d drops).map Prod.fst = (saveWorks d).map Sql.work ++ [Sql.commit] := by
  rw [saveScript]
  generalize (saveWorks d).map Sql.work ++ [Sql.commit] = statements
  apply List.ext_getElem
  · simp
  · intro i h₁ h₂
    rw [List.getElem_map, List.getElem_mapIdx]

theorem mem_statements {d : DataBillingContainer} {drops : Nat → Drops} {x : Sent}
    (h : x ∈ saveScript d drops) :
    x.1 ∈ (saveWorks d).map Sql.work ++ [Sql.commit] := by
  rw [← saveScript_statements d drops]
  exact List.mem_map_of_mem h

theorem saveScript_inScript {d : DataBillingContainer} {drops : Nat → Drops} :
    ∀ x ∈ saveScript d drops, x.inScript := by
  intro x hx
  have hmem := mem_statements hx
  simp only [List.mem_append, List.mem_map, List.mem_singleton] at hmem
  rcases hmem with ⟨w, -, hw⟩ | hcommit
  · exact Or.inr ⟨w, hw.symm⟩
  · exact Or.inl hcommit

/-- `COMMIT` is the last statement: whatever precedes another statement is work. -/
theorem saveScript_pre_work {d : DataBillingContainer} {drops : Nat → Drops}
    {pre : List Sent} {x : Sent} {post : List Sent} (h : saveScript d drops = pre ++ x :: post) :
    ∀ y ∈ pre, ∃ w, y.1 = .work w := by
  have hstatements := saveScript_statements d drops
  rw [h, List.map_append, List.map_cons] at hstatements
  obtain ⟨front, hfront⟩ : ∃ front, (saveWorks d).map Sql.work = pre.map Prod.fst ++ front := by
    rcases List.append_eq_append_iff.mp hstatements with ⟨tail, heq, htail⟩ | ⟨tail, heq, htail⟩
    · exact ⟨tail, heq⟩
    · cases tail with
      | nil => exact ⟨[], by simpa using heq.symm⟩
      | cons a tail => exact absurd (congrArg List.length htail) (by simp)
  intro y hy
  have hmem : y.1 ∈ (saveWorks d).map Sql.work := by
    rw [hfront]
    exact List.mem_append_left _ (List.mem_map_of_mem hy)
  obtain ⟨w, -, hw⟩ := List.mem_map.mp hmem
  exact ⟨w, hw.symm⟩

theorem mem_saveWorks {d : DataBillingContainer} {w : SaveWork} (h : w ∈ saveWorks d) :
    (∃ month ∈ d.calls.prepareSaveQueries.2, w = .createCallsRaw month) ∨
    (∃ query ∈ d.calls.prepareSaveQueries.1.toList,
      w = .insert (some query.1) (query.2.map .call)) ∨
    ∃ rows, rows ≠ [] ∧ w = .insert none rows := by
  have hstats : ∀ {ρ : Type} {row : ρ → StoredRow} {part : IntMap ρ},
      w ∈ insertStats row part → ∃ rows, rows ≠ [] ∧ w = .insert none rows := by
    intro ρ row part hw
    unfold insertStats at hw
    split at hw
    case isTrue => exact absurd hw (by simp)
    case isFalse hempty =>
      rw [List.mem_singleton] at hw
      refine ⟨_, ?_, hw⟩
      simpa [List.map_eq_nil_iff, Std.ExtTreeMap.isEmpty_iff] using hempty
  simp only [saveWorks, List.mem_append, List.mem_map] at h
  rcases h with (((((⟨month, hmonth, rfl⟩ | ⟨query, hquery, rfl⟩) | h) | h) | h) | h) | h
  · exact Or.inl ⟨month, hmonth, rfl⟩
  · exact Or.inr (Or.inl ⟨query, hquery, rfl⟩)
  all_goals exact Or.inr (Or.inr (hstats h))

/-- A query of a month has calls. -/
theorem query_ne_nil {d : DataBillingContainer} {query : Int × List Call}
    (h : query ∈ d.calls.prepareSaveQueries.1.toList) :
    query.2 = CallsManager.callsOfMonth (d.calls.realtimeCallsParts.headD []) query.1 ∧
      query.2 ≠ [] := by
  have hrow := Std.ExtTreeMap.mem_toList_iff_getElem?_eq_some.mp h
  rw [CallsManager.prepareSaveQueries, CallsManager.getElem?_prepareCalls] at hrow
  split at hrow
  case isTrue => exact absurd hrow (by simp)
  case isFalse hne =>
    rw [Option.some.injEq] at hrow
    exact ⟨hrow.symm, hrow ▸ hne⟩

/-- Every insert of the script inserts something. -/
theorem insertedRows_ne_nil {d : DataBillingContainer} {drops : Nat → Drops} {x : Sent}
    (h : x ∈ saveScript d drops) (hinsert : isInsert x.1 = true) : insertedRows x.1 ≠ [] := by
  have hmem := mem_statements h
  simp only [List.mem_append, List.mem_map, List.mem_singleton] at hmem
  rcases hmem with ⟨w, hw, heq⟩ | hcommit
  · rw [← heq] at hinsert ⊢
    rcases mem_saveWorks hw with ⟨month, -, rfl⟩ | ⟨query, hquery, rfl⟩ | ⟨rows, hrows, rfl⟩
    · exact absurd hinsert (by simp [isInsert])
    · simpa [insertedRows] using (query_ne_nil hquery).2
    · exact hrows
  · rw [hcommit] at hinsert
    exact absurd hinsert (by simp [isInsert])

theorem rowsOf_eq_nil_iff {d : DataBillingContainer} {drops : Nat → Drops} {sent : List Sent}
    (h : ∀ x ∈ sent, x ∈ saveScript d drops) :
    rowsOf sent = [] ↔ ∀ x ∈ sent, isInsert x.1 = false := by
  rw [rowsOf, List.flatMap_eq_nil_iff]
  constructor
  · intro hrows x hx
    by_contra hinsert
    exact insertedRows_ne_nil (h x hx) (by simpa using hinsert) (hrows x hx)
  · intro hinsert x hx
    have hx' := hinsert x hx
    unfold isInsert at hx'
    unfold insertedRows
    split at hx'
    case h_1 => exact absurd hx' (by simp)
    case h_2 => rfl

/-- A month's table is created before the month's calls are inserted. -/
theorem saveScript_covered {d : DataBillingContainer} {drops : Nat → Drops} {mid : List Sent}
    {y : Sent} {rest : List Sent} (h : saveScript d drops = mid ++ y :: rest)
    (months : List Int) : ¬ Missing (months ++ created mid) y := by
  rintro ⟨month, rows, hy, hnot⟩
  apply hnot
  have hymem : y ∈ saveScript d drops := by rw [h]; simp
  -- the month of an insert is one of those listed for creation
  have hmonth : month ∈ d.calls.prepareSaveQueries.2 := by
    have hmem := mem_statements hymem
    rw [hy] at hmem
    simp only [List.mem_append, List.mem_map, List.mem_singleton, reduceCtorEq, or_false,
      Sql.work.injEq, exists_eq_right] at hmem
    rcases mem_saveWorks hmem with ⟨_, -, heq⟩ | ⟨query, hquery, heq⟩ | ⟨_, -, heq⟩
    · exact absurd heq (by simp)
    · obtain ⟨hcalls, hne⟩ := query_ne_nil hquery
      rw [SaveWork.insert.injEq, Option.some.injEq] at heq
      rw [heq.1, CallsManager.prepareSaveQueries, CallsManager.mem_prepareCalls_months, ← hcalls]
      exact hne
    · exact absurd heq (by simp)
  -- the creations are the first statements of the script
  have hstatements := saveScript_statements d drops
  rw [h, List.map_append, List.map_cons, saveWorks] at hstatements
  simp only [List.map_append, List.append_assoc] at hstatements
  have hcreated : created mid = (mid.map Prod.fst).filterMap createdMonth := by
    simp [created, List.filterMap_map]
  have hcreates : month ∈ (List.map Sql.work
      (d.calls.prepareSaveQueries.2.map SaveWork.createCallsRaw)).filterMap createdMonth := by
    simpa [List.filterMap_map, createdMonth] using hmonth
  rw [List.mem_append, hcreated]
  right
  rcases List.append_eq_append_iff.mp hstatements with ⟨tail, heq, htail⟩ | ⟨tail, heq, -⟩
  · cases tail with
    | nil => rwa [heq, List.append_nil] at hcreates
    | cons z tail =>
        -- the insert itself would be one of the creations
        rw [List.cons_append, List.cons.injEq] at htail
        have hz : z ∈ List.map Sql.work
            (d.calls.prepareSaveQueries.2.map SaveWork.createCallsRaw) := by
          rw [heq]
          simp
        rw [← htail.1, hy] at hz
        exact absurd hz (by simp)
  · rw [heq, List.filterMap_append]
    exact List.mem_append_left _ hcreates

theorem insertedRows_insertStats {ρ : Type} (row : ρ → StoredRow) (part : IntMap ρ) :
    ((insertStats row part).map Sql.work).flatMap insertedRows = statsRows row part := by
  unfold insertStats statsRows
  split
  case isTrue hempty =>
    have hnil : part = ∅ := Std.ExtTreeMap.isEmpty_iff.mp hempty
    simp [hnil]
  case isFalse => simp [insertedRows]

/-- The inserts of the script hold the rows of partition 0. -/
theorem perm_rowsOf_saveScript (d : DataBillingContainer) (drops : Nat → Drops) :
    (rowsOf (saveScript d drops)).Perm (queuedRows d) := by
  have hstatements : rowsOf (saveScript d drops) =
      ((saveWorks d).map Sql.work ++ [Sql.commit]).flatMap insertedRows := by
    rw [← saveScript_statements d drops, List.flatMap_map]
    rfl
  have hcreate : ((d.calls.prepareSaveQueries.2.map SaveWork.createCallsRaw).map
      Sql.work).flatMap insertedRows = [] := by
    simp [List.flatMap_map, insertedRows]
  have hcalls : ((d.calls.prepareSaveQueries.1.toList.map fun query =>
      SaveWork.insert (some query.1) (query.2.map .call)).map Sql.work).flatMap insertedRows =
      (d.calls.prepareSaveQueries.1.toList.map Prod.snd).flatten.map StoredRow.call := by
    simp [insertedRows, List.map_flatten, List.flatMap_def, Function.comp_def]
  have hcommit : [Sql.commit].flatMap insertedRows = [] := rfl
  have hperm := (CallsManager.perm_prepareCalls
    (d.calls.realtimeCallsParts.headD [])).map StoredRow.call
  rw [hstatements, saveWorks, queuedRows]
  simp only [List.map_append, List.flatMap_append, insertedRows_insertStats, hcreate, hcalls,
    hcommit, List.nil_append, List.append_nil]
  exact ((((hperm.append_right _).append_right _).append_right _).append_right _).append_right _

/-! ## The save as a whole -/

theorem queuedRows_createNewPartition (d : DataBillingContainer) :
    queuedRows d.createNewPartition = queuedRows d := by
  have hhead : ∀ {α : Type} (parts : List α) (a : α), (parts ++ [a]).headD a = parts.headD a := by
    intro α parts a
    cases parts <;> rfl
  simp only [queuedRows, DataBillingContainer.createNewPartition,
    CallsManager.createNewPartition_parts, StatsAccountManager.createNewPartition,
    UsageManager.createNewPartition, Ledger.openPart, hhead]

theorem queuedRows_saveStart {d d' : DataBillingContainer} (h : d.saveStart = some d') :
    queuedRows d' = queuedRows d := by
  obtain ⟨-, ⟨rfl, -⟩ | ⟨rfl, -⟩⟩ := DataBillingContainer.saveStart_cases h
  · rfl
  · exact queuedRows_createNewPartition d

/-- `BEGIN` either fails without effect or opens a transaction. -/
theorem exec_begin (db : SaveDb) (connected : Bool) (drops : Drops) :
    (BeginFails connected drops ∧
      (auto db connected).exec SaveWork.apply .begin drops = (auto db false, false)) ∨
    (¬ BeginFails connected drops ∧
      (auto db connected).exec SaveWork.apply .begin drops = (inTransaction db db, true)) := by
  obtain ⟨first, again⟩ := drops
  cases first <;> cases again <;> cases connected <;>
    simp [BeginFails, BDb.exec, BDb.attempt, auto, inTransaction, Session.execute,
      BDb.disconnect, Session.lose]

/-- The destructor's `ROLLBACK` changes nothing outside of a transaction. -/
theorem exec_rollback_durable (db : SaveDb) (drops : Drops) :
    ((auto db false).exec SaveWork.apply .rollback drops).1.durable = db := by
  obtain ⟨first, again⟩ := drops
  cases first <;>
    simp [BDb.exec, BDb.attempt, auto, Session.execute, BDb.disconnect, Session.lose]

/-- All or nothing, for the statements after `BEGIN`. -/
def ScriptAtomic (db : SaveDb) (script : List Sent) (result : BDb SaveDb × Bool) : Prop :=
  (result.2 = true → result.1.durable.rows.Perm (db.rows ++ rowsOf script)) ∧
  (result.2 = false → result.1.durable.rows = db.rows)

variable {d : DataBillingContainer} {drops : Nat → Drops} {db : SaveDb}

/-- Nothing is lost: the transaction commits. -/
theorem execAll_unlost (hfirst : ∀ x ∈ saveScript d drops, x.2.first = false) :
    (inTransaction db db).execAll SaveWork.apply (saveScript d drops) =
      (auto (effects db (saveScript d drops)) true, true) := by
  obtain ⟨front, last, hsplit⟩ : ∃ front last, saveScript d drops = front ++ [last] := by
    rcases List.eq_nil_or_concat' (saveScript d drops) with hnil | ⟨front, last, heq⟩
    · have := congrArg List.length (saveScript_statements d drops)
      rw [hnil] at this
      exact absurd this (by simp)
    · exact ⟨front, last, heq⟩
  have hlast : last.1 = .commit := by
    have hstatements := saveScript_statements d drops
    rw [hsplit, List.map_append, List.map_singleton] at hstatements
    simpa using (List.append_inj' hstatements rfl).2
  obtain ⟨statement, lastDrops⟩ := last
  simp only at hlast
  subst hlast
  have hpre := saveScript_pre_work hsplit
  have hcovered : ∀ mid y rest, front = mid ++ y :: rest →
      ¬ Missing (db.months ++ created mid) y := by
    intro mid y rest hmid
    exact saveScript_covered (h := by rw [hsplit, hmid, List.append_assoc]; rfl) db.months
  have hlost : lastDrops.first = false :=
    hfirst (Sql.commit, lastDrops) (by rw [hsplit]; simp)
  have hrows : effects db (front ++ [(Sql.commit, lastDrops)]) = effects db front := by
    simp [effects, created, rowsOf, createdMonth, insertedRows]
  rw [hsplit, execAll_inTransaction front _ db db hpre
    (fun x hx => hfirst x (by rw [hsplit]; exact List.mem_append_left _ hx)) hcovered, hrows]
  simp [BDb.execAll, BDb.exec, BDb.attempt, hlost, inTransaction, auto, Session.execute]

/-- The first loss decides. -/
theorem execAll_lost {pre : List Sent} {x : Sent} {post : List Sent}
    (hsplit : saveScript d drops = pre ++ x :: post) (hpre : ∀ y ∈ pre, y.2.first = false)
    (hx : x.2.first = true) :
    (StopsAt db.months x ∧
      (inTransaction db db).execAll SaveWork.apply (saveScript d drops) = (auto db false, false)) ∨
    (¬ StopsAt db.months x ∧
      (inTransaction db db).execAll SaveWork.apply (saveScript d drops) =
        (auto (effects db [x]) true).execAll SaveWork.apply post) := by
  have hcovered : ∀ mid y rest, pre = mid ++ y :: rest →
      ¬ Missing (db.months ++ created mid) y := by
    intro mid y rest hmid
    exact saveScript_covered (h := by rw [hsplit, hmid, List.append_assoc]; rfl) db.months
  have hscript : x.inScript := saveScript_inScript x (by rw [hsplit]; simp)
  rw [hsplit, execAll_inTransaction pre _ db db (saveScript_pre_work hsplit) hpre hcovered]
  rcases exec_lost db (effects db pre) hscript hx with ⟨hstops, heq⟩ | ⟨hruns, heq⟩
  · exact Or.inl ⟨hstops, by simp [BDb.execAll, heq]⟩
  · exact Or.inr ⟨hruns, by simp [BDb.execAll, heq]⟩

/-- The three ways to survive the first loss, and no other. -/
theorem scriptAtomic_lost_iff {pre : List Sent} {x : Sent} {post : List Sent}
    (hsplit : saveScript d drops = pre ++ x :: post) (hpre : ∀ y ∈ pre, y.2.first = false)
    (hx : x.2.first = true) :
    ScriptAtomic db (saveScript d drops)
      ((inTransaction db db).execAll SaveWork.apply (saveScript d drops)) ↔
    StopsAt db.months x ∨
    ((∀ y ∈ pre, isInsert y.1 = false) ∧
      ∀ mid y rest, post = mid ++ y :: rest → ¬ StopsAt (db.months ++ created (x :: mid)) y) ∨
    ∃ mid y rest, post = mid ++ y :: rest ∧ StopsAt (db.months ++ created (x :: mid)) y ∧
      ∀ z ∈ x :: mid, isInsert z.1 = false := by
  have hmonths : ∀ mid, (effects db [x]).months ++ created mid =
      db.months ++ created (x :: mid) := by
    intro mid
    have hcreated := created_append [x] mid
    rw [List.singleton_append] at hcreated
    simp [effects, hcreated]
  have hmempost : ∀ y ∈ post, y ∈ saveScript d drops := by
    intro y hy
    rw [hsplit]
    exact List.mem_append_right _ (List.mem_cons_of_mem x hy)
  -- after the loss the statements are no longer in the transaction
  rcases @execAll_lost d drops db pre x post hsplit hpre hx with ⟨hstops, heq⟩ | ⟨hruns, heq⟩
  · rw [heq]
    exact ⟨fun _ => Or.inl hstops, fun _ => ⟨by simp, fun _ => rfl⟩⟩
  · rw [heq]
    rcases execAll_auto post (effects db [x]) (fun y hy => saveScript_inScript y (hmempost y hy))
      with ⟨hall, hrun⟩ | ⟨mid, y, rest, hpost, hstop, hleast, hrun⟩
    · -- the rest goes through: what preceded the loss must not have inserted
      rw [hrun, ← effects_cons]
      have hnone : ∀ mid y rest, post = mid ++ y :: rest →
          ¬ StopsAt (db.months ++ created (x :: mid)) y := by
        intro mid y rest hmid
        rw [← hmonths]
        exact hall mid y rest hmid
      have hrows := @rowsOf_eq_nil_iff d drops pre
        (fun z hz => by rw [hsplit]; exact List.mem_append_left _ hz)
      have hscript : rowsOf (saveScript d drops) = rowsOf pre ++ rowsOf (x :: post) := by
        rw [hsplit, rowsOf_append]
      constructor
      · rintro ⟨hperm, -⟩
        refine Or.inr (Or.inl ⟨hrows.mp ?_, hnone⟩)
        have hlength := (hperm rfl).length_eq
        simp only [auto, effects, hscript, List.length_append] at hlength
        exact List.length_eq_zero_iff.mp (by omega)
      · rintro (hstops | ⟨hinserts, -⟩ | ⟨mid, y, rest, hmid, hstop, -⟩)
        · exact absurd hstops hruns
        · refine ⟨fun _ => ?_, by simp⟩
          rw [hscript, hrows.mpr hinserts]
          exact List.Perm.refl _
        · exact absurd hstop (hnone mid y rest hmid)
    · -- a later statement stops the save: what it has sent by then must not have inserted
      rw [hrun, ← effects_cons]
      have hrows := @rowsOf_eq_nil_iff d drops (x :: mid) (by
        intro z hz
        rcases List.mem_cons.mp hz with rfl | hz
        · rw [hsplit]; simp
        · exact hmempost z (by rw [hpost]; exact List.mem_append_left _ hz))
      constructor
      · rintro ⟨-, hsame⟩
        refine Or.inr (Or.inr ⟨mid, y, rest, hpost, by rw [← hmonths]; exact hstop, hrows.mp ?_⟩)
        have := hsame rfl
        simpa [auto, effects] using this
      · rintro (hstops | ⟨-, hnone⟩ | ⟨mid', y', rest', hmid', hstop', hinserts⟩)
        · exact absurd hstops hruns
        · exact absurd (hmonths mid ▸ hstop) (hnone mid y rest hpost)
        · rw [← hmonths] at hstop'
          have hle := hleast mid' y' rest' hmid' hstop'
          have hleading : mid <+: mid' :=
            List.prefix_of_prefix_length_le ⟨y :: rest, hpost.symm⟩ ⟨y' :: rest', hmid'.symm⟩ hle
          have hnil : rowsOf (x :: mid) = [] := by
            refine hrows.mpr fun z hz => hinserts z ?_
            rcases List.mem_cons.mp hz with rfl | hz
            · exact List.mem_cons_self
            · exact List.mem_cons_of_mem x (hleading.subset hz)
          refine ⟨by simp, fun _ => ?_⟩
          simp [auto, effects, hnil]

theorem scriptAtomic_iff :
    ScriptAtomic db (saveScript d drops)
      ((inTransaction db db).execAll SaveWork.apply (saveScript d drops)) ↔
    ScriptSafe db.months (saveScript d drops) := by
  constructor
  · intro hatomic pre x post hsplit hpre hx
    exact (scriptAtomic_lost_iff hsplit hpre hx).mp hatomic
  · intro hsafe
    cases hfind : (saveScript d drops).find? (fun x => x.2.first) with
    | none =>
        rw [List.find?_eq_none] at hfind
        rw [execAll_unlost (by simpa using hfind)]
        exact ⟨fun _ => List.Perm.refl _, by simp⟩
    | some x =>
        obtain ⟨hx, pre, post, hsplit, hpre⟩ := List.find?_eq_some_iff_append.mp hfind
        have hpre' : ∀ y ∈ pre, y.2.first = false := by simpa using hpre
        exact (scriptAtomic_lost_iff hsplit hpre' hx).mpr (hsafe pre x post hsplit hpre' hx)

/-- A save that throws leaves no transaction open. -/
theorem execAll_throws (h : ((inTransaction db db).execAll SaveWork.apply
    (saveScript d drops)).2 = false) :
    ∃ after, ((inTransaction db db).execAll SaveWork.apply (saveScript d drops)).1 =
      auto after false := by
  cases hfind : (saveScript d drops).find? (fun x => x.2.first) with
  | none =>
      rw [List.find?_eq_none] at hfind
      rw [execAll_unlost (by simpa using hfind)] at h
      exact absurd h (by simp)
  | some x =>
      obtain ⟨hx, pre, post, hsplit, hpre⟩ := List.find?_eq_some_iff_append.mp hfind
      have hlost := @execAll_lost d drops db pre x post hsplit (by simpa using hpre) hx
      rcases hlost with ⟨-, heq⟩ | ⟨-, heq⟩
      · exact ⟨db, by rw [heq]⟩
      · rw [heq] at h ⊢
        have hpost : ∀ y ∈ post, y.inScript := by
          intro y hy
          exact saveScript_inScript y (by
            rw [hsplit]; exact List.mem_append_right _ (List.mem_cons_of_mem x hy))
        rcases execAll_auto post (effects db [x]) hpost with ⟨-, hrun⟩ | ⟨mid, _, _, _, _, _, hrun⟩
        · rw [hrun] at h
          exact absurd h (by simp)
        · exact ⟨_, by rw [hrun]⟩

/-- **When a save is atomic.**  For every content of the partitions and every
pattern of losses, the save stores partition 0 exactly if it returns, and keeps
it exactly if it throws, precisely when the losses are harmless. -/
theorem save_atomic_iff (d : DataBillingContainer) (db : BDb SaveDb) (drops : Nat → Drops)
    (hidle : db.working = none) :
    SaveAtomic d db.durable (save d db drops) ↔ LossesHarmless d db drops := by
  obtain ⟨⟨durable, working⟩, connected⟩ := db
  simp only at hidle
  subst hidle
  rw [save, LossesHarmless]
  cases hstart : d.saveStart with
  | none =>
      -- the early return: nothing is sent
      constructor
      · rintro ⟨hperm, -⟩
        have hlength := (hperm rfl).length_eq
        simp only [List.length_append] at hlength
        exact List.length_eq_zero_iff.mp (by omega)
      · intro hnil
        exact ⟨fun _ => by rw [hnil, List.append_nil], by simp⟩
  | some d' =>
      have hqueued := queuedRows_saveStart hstart
      have hperm := (perm_rowsOf_saveScript d' drops).trans (by rw [hqueued])
      rcases exec_begin durable connected (drops 0) with ⟨hfails, hbegin⟩ | ⟨hopens, hbegin⟩
      · simp only [auto] at hbegin
        simp only [hbegin]
        exact ⟨fun _ => Or.inl hfails, fun _ => ⟨by simp, fun _ => ⟨rfl, hqueued⟩⟩⟩
      · simp only [auto] at hbegin
        simp only [hbegin]
        rw [or_iff_right hopens, ← scriptAtomic_iff]
        cases hresult : (inTransaction durable durable).execAll SaveWork.apply
          (saveScript d' drops) with
        | mk after ok =>
            cases ok with
            | true =>
                constructor
                · rintro ⟨hstored, -⟩
                  exact ⟨fun _ => (hstored rfl).trans (hperm.symm.append_left _), by simp⟩
                · rintro ⟨hstored, -⟩
                  exact ⟨fun _ => (hstored rfl).trans (hperm.append_left _), by simp⟩
            | false =>
                obtain ⟨final, hfinal⟩ := @execAll_throws d' drops durable
                  (by rw [hresult])
                rw [hresult] at hfinal
                simp only at hfinal
                subst hfinal
                constructor
                · rintro ⟨-, hkept⟩
                  refine ⟨by simp, fun _ => ?_⟩
                  have hrows := (hkept rfl).1
                  rw [exec_rollback_durable] at hrows
                  exact hrows
                · rintro ⟨-, hkept⟩
                  refine ⟨by simp, fun _ => ⟨?_, hqueued⟩⟩
                  rw [exec_rollback_durable]
                  exact hkept rfl

/-- One call of account 7 with its counter row, ready to be saved. -/
def oneCall : DataBillingContainer :=
  DataBillingContainer.empty.addCall
    { call := { id := 1, accountId := 7, cost := -2 }, account := some { id := 7 } }

def emptyDb : BDb SaveDb := auto ⟨[], []⟩ true

/-- The connection is lost during the first attempt of `COMMIT`, statement 4. -/
def lostAtCommit (i : Nat) : Drops := ⟨i = 4, false⟩

/-- The save returns and removes its partition, and nothing is stored. -/
theorem save_lostAtCommit_not_atomic :
    (save oneCall emptyDb lostAtCommit).returned = true ∧
      (save oneCall emptyDb lostAtCommit).db.durable.rows = [] ∧
      ¬ SaveAtomic oneCall emptyDb.durable (save oneCall emptyDb lostAtCommit) := by
  have hreturned : (save oneCall emptyDb lostAtCommit).returned = true := by decide +kernel
  have hrows : (save oneCall emptyDb lostAtCommit).db.durable.rows = [] := by decide +kernel
  refine ⟨hreturned, hrows, ?_⟩
  rintro ⟨hstored, -⟩
  have hlength := (hstored hreturned).length_eq
  rw [hrows] at hlength
  exact absurd hlength (by decide +kernel)

theorem save_atomic_of_no_loss :
    SaveAtomic oneCall emptyDb.durable (save oneCall emptyDb fun _ => ⟨false, false⟩) := by
  refine (save_atomic_iff oneCall emptyDb _ rfl).mpr ?_
  have hstart : oneCall.saveStart = some oneCall.createNewPartition := by
    have hneed : oneCall.calls.isNeedSave = true := by decide +kernel
    have hone : oneCall.calls.isNeedCreatePartitionBeforeSave = true := by decide +kernel
    simp [DataBillingContainer.saveStart, hneed, hone]
  rw [LossesHarmless, hstart]
  right
  intro pre x post hsplit _ hx
  have hmem : x ∈ saveScript oneCall.createNewPartition fun _ => ⟨false, false⟩ := by
    rw [hsplit]; simp
  rw [saveScript, List.mem_mapIdx] at hmem
  obtain ⟨i, hi, rfl⟩ := hmem
  exact absurd hx (by simp)

end ConnectionLoss
end VoipBill
