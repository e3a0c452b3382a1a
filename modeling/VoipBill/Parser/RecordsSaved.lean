import VoipBill.Parser.ThreadCdrParser

/-!
# Which records of a processed file are saved

`parseFile` gives a file up as soon as one of its records is rejected, and
`processFile` records the file all the same.  A failed insert of an unfinished
call is only logged.  So a file is recorded with an accepted record missing
exactly when one of the two happens to a record that is not there already.

The theorem `accepted_saved_iff` says this for every content of the file and
every answer of the database.
-/

namespace VoipBill
namespace ThreadCdrParser

open CdrParser

/-! ### What `saveCalls` does -/

section SaveCalls

variable (answers : FileAnswers)

theorem saveCalls_cons (call : CallData) (calls : List CallData) (cdrFile : CdrFile) :
    ∃ next : CdrFile, next.progress = cdrFile.progress + 1 ∧
      ((saveOne answers (cdrFile.progress + 1) call).2 = true →
        (saveCalls answers (call :: calls) cdrFile).2 =
          ((saveOne answers (cdrFile.progress + 1) call).1 ++ (saveCalls answers calls next).2.1,
            (saveCalls answers calls next).2.2)) ∧
      ((saveOne answers (cdrFile.progress + 1) call).2 = false →
        (saveCalls answers (call :: calls) cdrFile).2.2 = false) := by
  refine ⟨⟨cdrFile.fileName, cdrFile.totalCount,
    if call.isFinished then cdrFile.insertCount + 1 else cdrFile.insertCount,
    cdrFile.errorCount, cdrFile.errorIds, cdrFile.progress + 1⟩, rfl, ?_, ?_⟩
  all_goals
    intro hgoes
    rw [saveCalls]
    dsimp only
    revert hgoes
    rcases saveOne answers (cdrFile.progress + 1) call with ⟨statements, goes⟩
    rintro rfl
    rfl

/-- A loop that comes to its end goes through every call, and its statements are
those of its calls. -/
theorem saveCalls_done {calls : List CallData} {cdrFile : CdrFile}
    (hdone : (saveCalls answers calls cdrFile).2.2 = true) :
    (∀ k call, calls[k]? = some call →
      (saveOne answers (cdrFile.progress + 1 + k) call).2 = true) ∧
    ∀ statement, statement ∈ (saveCalls answers calls cdrFile).2.1 ↔
      ∃ k call, calls[k]? = some call ∧
        statement ∈ (saveOne answers (cdrFile.progress + 1 + k) call).1 := by
  induction calls generalizing cdrFile with
  | nil => simp [saveCalls]
  | cons first calls ih =>
      obtain ⟨next, hprogress, htrue, hfalse⟩ := saveCalls_cons answers first calls cdrFile
      cases hgoes : (saveOne answers (cdrFile.progress + 1) first).2 with
      | false => exact absurd hdone (by rw [hfalse hgoes]; simp)
      | true =>
          have hstep := htrue hgoes
          rw [hstep] at hdone ⊢
          obtain ⟨hall, hmem⟩ := ih hdone
          -- the call at place `k + 1` is the one at place `k` behind the first
          have hplace : ∀ k, next.progress + 1 + k = cdrFile.progress + 1 + (k + 1) := by
            intro k
            omega
          constructor
          · intro k call hcall
            cases k with
            | zero =>
                obtain rfl : first = call := by simpa using hcall
                exact hgoes
            | succ k =>
                rw [← hplace]
                exact hall k call (by simpa using hcall)
          · intro statement
            rw [List.mem_append, hmem]
            constructor
            · rintro (hfirst | ⟨k, call, hcall, hin⟩)
              · exact ⟨0, first, rfl, hfirst⟩
              · exact ⟨k + 1, call, by simpa using hcall, by rwa [← hplace]⟩
            · rintro ⟨k, call, hcall, hin⟩
              cases k with
              | zero =>
                  obtain rfl : first = call := by simpa using hcall
                  exact Or.inl hin
              | succ k => exact Or.inr ⟨k, call, by simpa using hcall, by rwa [hplace]⟩

end SaveCalls

/-! ### Saved records -/

/-- The call with the given progress is saved: a finished one by its insert, an
unfinished one too unless the database says that it is there already. -/
def Saved (answers : FileAnswers) (statements : List CdrStatement) (progress : Nat)
    (call : CallData) : Prop :=
  if call.isFinished then .insertCdr2 progress call ∈ statements
  else answers.unfinishedExists progress = some true ∨
    .insertCdrUnfinished progress call ∈ statements

/-- Every accepted record of the file is saved.  The calls have the progress
1, 2, 3 and so on. -/
def AcceptedSaved (md5 : List Char → List UInt8) (answers : FileAnswers) (fileName : String)
    (rs : List (List Char)) : Prop :=
  ∀ k call, (accepted md5 rs)[k]? = some call →
    Saved answers (processFile md5 answers fileName).1 (k + 1) call

/-- No error is counted.  The counter has 32 bits. -/
def CountsNoError (md5 : List Char → List UInt8) (rs : List (List Char)) : Prop :=
  (rejected md5 rs).length % 2 ^ 32 = 0

/-- The condition: no error is counted and the insert of an unfinished call succeeds,
or the record is an unfinished call that is there already. -/
def NoRecordLost (md5 : List Char → List UInt8) (answers : FileAnswers)
    (rs : List (List Char)) : Prop :=
  ∀ k call, (accepted md5 rs)[k]? = some call →
    if call.isFinished then CountsNoError md5 rs
    else answers.unfinishedExists (k + 1) = some true ∨
      CountsNoError md5 rs ∧ answers.insertsUnfinished (k + 1) = true

section Saved

variable {answers : FileAnswers} {statements : List CdrStatement} {progress : Nat}
  {call : CallData}

/-- The statements of a call name the call and its progress. -/
theorem of_mem_saveOne {statement : CdrStatement}
    (h : statement ∈ (saveOne answers progress call).1) :
    statement = .insertCdr2 progress call ∨ statement = .insertCdrUnfinished progress call := by
  unfold saveOne at h
  split at h
  · split at h
    · exact Or.inl (by simpa using h)
    · simp at h
  · split at h
    · simp at h
    · simp at h
    · split at h
      · exact Or.inr (by simpa using h)
      · simp at h

/-- When the loop goes on behind a call, a finished one is saved. -/
theorem insertCdr2_mem_saveOne (hfinished : call.isFinished = true)
    (hgoes : (saveOne answers progress call).2 = true) :
    .insertCdr2 progress call ∈ (saveOne answers progress call).1 := by
  rw [saveOne, if_pos hfinished] at hgoes ⊢
  split at hgoes
  · rename_i hinserts
    simp [hinserts]
  · simp at hgoes

/-- When the loop goes on behind an unfinished call, it is saved or there already
unless its insert fails. -/
theorem insertCdrUnfinished_mem_saveOne_iff (hfinished : call.isFinished = false)
    (hgoes : (saveOne answers progress call).2 = true) :
    answers.unfinishedExists progress = some true ∨
        .insertCdrUnfinished progress call ∈ (saveOne answers progress call).1 ↔
      answers.unfinishedExists progress = some true ∨
        answers.insertsUnfinished progress = true := by
  have hnot : ¬ call.isFinished = true := by simp [hfinished]
  rw [saveOne, if_neg hnot] at hgoes ⊢
  cases hexists : answers.unfinishedExists progress with
  | none => rw [hexists] at hgoes; simp at hgoes
  | some found =>
      cases found with
      | true => simp
      | false =>
          cases answers.insertsUnfinished progress with
          | true => simp
          | false => simp

/-- The record of the file saves no call. -/
theorem saved_append_saveCdrFile (cdrFile : CdrFile) :
    Saved answers (statements ++ (saveCdrFile answers cdrFile).1) progress call ↔
      Saved answers statements progress call := by
  have hnone : ∀ statement ∈ (saveCdrFile answers cdrFile).1,
      statement = .insertCdrFile cdrFile := by
    intro statement hstatement
    rw [saveCdrFile] at hstatement
    split at hstatement
    · simpa using hstatement
    · simp at hstatement
  have hcdr2 : .insertCdr2 progress call ∉ (saveCdrFile answers cdrFile).1 := fun h =>
    absurd (hnone _ h) (by simp)
  have hunfinished : .insertCdrUnfinished progress call ∉ (saveCdrFile answers cdrFile).1 :=
    fun h => absurd (hnone _ h) (by simp)
  simp only [Saved, List.mem_append, hcdr2, hunfinished, or_false]

/-- A call of a loop that comes to its end is saved exactly when it is finished, is
there already or its insert succeeds. -/
theorem saved_saveCalls_iff {calls : List CallData} {cdrFile : CdrFile} {k : Nat}
    (hdone : (saveCalls answers calls cdrFile).2.2 = true) (hprogress : cdrFile.progress = 0)
    (hcall : calls[k]? = some call) :
    Saved answers (saveCalls answers calls cdrFile).2.1 (k + 1) call ↔
      (call.isFinished = false → answers.unfinishedExists (k + 1) = some true ∨
        answers.insertsUnfinished (k + 1) = true) := by
  obtain ⟨hall, hmem⟩ := saveCalls_done answers hdone
  simp only [hprogress, Nat.zero_add, Nat.add_comm 1] at hall hmem
  have hgoes := hall k call hcall
  -- a statement with the progress of this call is a statement of this call
  have hown : ∀ statement, (statement = .insertCdr2 (k + 1) call ∨
        statement = .insertCdrUnfinished (k + 1) call) →
      (statement ∈ (saveCalls answers calls cdrFile).2.1 ↔
        statement ∈ (saveOne answers (k + 1) call).1) := by
    intro statement hstatement
    rw [hmem]
    constructor
    · rintro ⟨other, otherCall, hother, hin⟩
      have hsame : other = k := by
        rcases of_mem_saveOne hin with h | h <;> rcases hstatement with h' | h' <;>
          · rw [h'] at h
            simp at h
            try omega
      subst hsame
      obtain rfl : call = otherCall := by
        rw [hcall] at hother
        exact Option.some.inj hother
      exact hin
    · exact fun hin => ⟨k, call, hcall, hin⟩
  cases hfinished : call.isFinished with
  | true =>
      simp only [Saved, hfinished, if_true, reduceCtorEq, false_implies, iff_true]
      rw [hown _ (Or.inl rfl)]
      exact insertCdr2_mem_saveOne hfinished hgoes
  | false =>
      simp only [Saved, hfinished, Bool.false_eq_true, if_false, forall_const]
      rw [hown _ (Or.inr rfl)]
      exact insertCdrUnfinished_mem_saveOne_iff hfinished hgoes

end Saved

/-- **Which files lose records.**  When a file is recorded as processed, every record
that `ParseCall` accepts has been saved if and only if every accepted record is an
unfinished call that is there already, or belongs to a file without rejected records
and is not an unfinished call whose insert fails. -/
theorem accepted_saved_iff (md5 : List Char → List UInt8) (answers : FileAnswers)
    (fileName : String) (fileContent : List Char) (rs : List (List Char))
    (hfetch : answers.fetch = some fileContent) (hrecords : records fileContent = .ok rs)
    (hrecorded : fileName ∈ recorded (processFile md5 answers fileName).1) :
    AcceptedSaved md5 answers fileName rs ↔ NoRecordLost md5 answers rs := by
  obtain ⟨errorids, hparse⟩ := parse_eq md5 hrecords
  -- with an error in the file only unfinished calls that are there already count as saved
  by_cases hzero : CountsNoError md5 rs
  · have hprocess := processFile_of_parsed md5 answers fileName hfetch hparse hzero
    generalize hstart : (⟨fileName, (accepted md5 rs).length, 0, 0, errorids, 0⟩ : CdrFile) =
      cdrFile at hprocess
    have hprogress : cdrFile.progress = 0 := by rw [← hstart]
    -- a file that is recorded was saved to its end
    have hdone : (saveCalls answers (accepted md5 rs) cdrFile).2.2 = true := by
      rw [recorded_processFile] at hrecorded
      by_contra hnot
      rw [hprocess] at hrecorded
      simp [hnot] at hrecorded
    simp only [if_pos hdone] at hprocess
    have hsaved : ∀ k call, (accepted md5 rs)[k]? = some call →
        (Saved answers (processFile md5 answers fileName).1 (k + 1) call ↔
          (call.isFinished = false → answers.unfinishedExists (k + 1) = some true ∨
            answers.insertsUnfinished (k + 1) = true)) := by
      intro k call hcall
      rw [hprocess, saved_append_saveCdrFile]
      exact saved_saveCalls_iff hdone hprogress hcall
    have hlost : NoRecordLost md5 answers rs ↔
        ∀ k call, (accepted md5 rs)[k]? = some call →
          (call.isFinished = false → answers.unfinishedExists (k + 1) = some true ∨
            answers.insertsUnfinished (k + 1) = true) := by
      unfold NoRecordLost
      refine forall_congr' fun k => forall_congr' fun call => imp_congr_right fun _ => ?_
      cases call.isFinished with
      | true => simp [hzero]
      | false => simp [hzero]
    rw [hlost]
    exact forall_congr' fun k => forall_congr' fun call => forall_congr' (hsaved k call)
  · have hprocess := processFile_of_errors md5 answers fileName hfetch hparse
      (Nat.pos_of_ne_zero hzero)
    have hsaved : ∀ k call,
        (Saved answers (processFile md5 answers fileName).1 (k + 1) call ↔
          call.isFinished = false ∧ answers.unfinishedExists (k + 1) = some true) := by
      intro k call
      rw [hprocess, ← List.nil_append (saveCdrFile answers _).1, saved_append_saveCdrFile]
      cases hfinished : call.isFinished with
      | true => simp [Saved, hfinished]
      | false => simp [Saved, hfinished]
    refine forall_congr' fun k => forall_congr' fun call => imp_congr_right fun _ => ?_
    rw [hsaved]
    cases call.isFinished with
    | true => simp [hzero]
    | false => simp [hzero]

/-! ### A file with a good and a bad record -/

/-- A finished call, and a call whose start time is too short. -/
def mixedFile : List Char :=
  ("<OT_Call_CDR><CallFinished>YES</CallFinished></OT_Call_CDR>" ++
    "<OT_Call_CDR><StartTimeStamp>2016</StartTimeStamp></OT_Call_CDR>").toList

/-- Nothing fails, the file is recorded, and its good record is not saved. -/
theorem bad_record_loses_good_one :
    ∃ rs, records mixedFile = .ok rs ∧ (accepted emptyDigest rs).length = 1 ∧
      "20160101.xml" ∈
        recorded (processFile emptyDigest (allSucceed mixedFile) "20160101.xml").1 ∧
      ¬ AcceptedSaved emptyDigest (allSucceed mixedFile) "20160101.xml" rs := by
  refine ⟨["<CallFinished>YES</CallFinished>".toList,
    "<StartTimeStamp>2016</StartTimeStamp>".toList], by decide +kernel, by decide +kernel,
    by decide +kernel, fun hsaved => ?_⟩
  have hfirst := hsaved 0
    ((accepted emptyDigest ["<CallFinished>YES</CallFinished>".toList]).head (by decide +kernel))
    (by decide +kernel)
  revert hfirst
  unfold Saved
  decide +kernel

/-- The two calls of a file without rejected records, one of them unfinished. -/
def goodFile : List Char :=
  ("<OT_Call_CDR><CallFinished>YES</CallFinished></OT_Call_CDR>" ++
    "<OT_Call_CDR><CallFinished>NO</CallFinished></OT_Call_CDR>").toList

theorem good_records_are_saved :
    AcceptedSaved emptyDigest (allSucceed goodFile) "20160102.xml"
      ["<CallFinished>YES</CallFinished>".toList, "<CallFinished>NO</CallFinished>".toList] := by
  rw [accepted_saved_iff emptyDigest (allSucceed goodFile) "20160102.xml" goodFile _ rfl
    (by decide +kernel) (by decide +kernel)]
  intro k call hcall
  have herrors : CountsNoError emptyDigest
      ["<CallFinished>YES</CallFinished>".toList, "<CallFinished>NO</CallFinished>".toList] := by
    unfold CountsNoError
    decide +kernel
  split
  · exact herrors
  · exact Or.inr ⟨herrors, rfl⟩

end ThreadCdrParser
end VoipBill
