import VoipBill.Parser.CdrParser

/-!
# The thread that loads CDR files

`ThreadCdrParser`: the next file is found by a backward scan of the FTP listing,
fetched, parsed, saved call by call and then recorded in `calls_cdr.cdr_file`.

What the FTP server and the database answer comes from outside.  The thread is
therefore modelled by the statements that take effect, its journal: a statement
that throws leaves no trace.  The table `calls_cdr.cdr_file` is the list of the
file names in the journal.
-/

namespace VoipBill

open CdrParser

structure CdrFile where
  fileName : String
  totalCount : Nat
  insertCount : Nat
  errorCount : Nat
  errorIds : List Char
  progress : Nat
deriving DecidableEq

/-- Statements that took effect.  A call is named by its place in the file, which
is the `progress` it is saved with. -/
inductive CdrStatement
  | insertCdr2 (progress : Nat) (call : CallData)
  | insertCdrUnfinished (progress : Nat) (call : CallData)
  | insertCdrFile (file : CdrFile)
deriving DecidableEq

/-- What the server and the database answer while one file is processed: the
content of the file, and for the call with the given progress whether its inserts
succeed and what the query for an unfinished call says.  `none` is an exception. -/
structure FileAnswers where
  fetch : Option (List Char)
  insertsCdr2 : Nat → Bool
  unfinishedExists : Nat → Option Bool
  insertsUnfinished : Nat → Bool
  insertsCdrFile : Bool

namespace ThreadCdrParser

section ProcessFile

variable (md5 : List Char → List UInt8) (answers : FileAnswers)

/-- `parseFile`: the calls when it returns true. -/
def parseFile (cdrFile : CdrFile) (fileContent : List Char) :
    Except ParseError (CdrFile × Option (List CallData)) :=
  match parse md5 fileContent with
  | .error e => .error e
  | .ok parsed =>
      if 0 < parsed.errorcallscount then .ok (cdrFile, none)
      else
        .ok ({ cdrFile with
                totalCount := parsed.calls.length
                errorCount := parsed.errorcallscount
                errorIds := parsed.errorids }, some parsed.calls)

/-- The statements of one call; the flag tells whether the loop goes on.  A failed
insert of an unfinished call is only logged. -/
def saveOne (progress : Nat) (call : CallData) : List CdrStatement × Bool :=
  if call.isFinished then
    if answers.insertsCdr2 progress then ([.insertCdr2 progress call], true) else ([], false)
  else
    match answers.unfinishedExists progress with
    | none => ([], false)
    | some true => ([], true)
    | some false =>
        if answers.insertsUnfinished progress then ([.insertCdrUnfinished progress call], true)
        else ([], true)

/-- `saveCalls`: the calls up to the first exception. -/
def saveCalls : List CallData → CdrFile → CdrFile × List CdrStatement × Bool
  | [], cdrFile => (cdrFile, [], true)
  | call :: calls, cdrFile =>
      let cdrFile := { cdrFile with progress := cdrFile.progress + 1 }
      match saveOne answers cdrFile.progress call with
      | (statements, false) => (cdrFile, statements, false)
      | (statements, true) =>
          let insertCount :=
            if call.isFinished then cdrFile.insertCount + 1 else cdrFile.insertCount
          let rest := saveCalls calls { cdrFile with insertCount }
          (rest.1, statements ++ rest.2.1, rest.2.2)

/-- `saveCdrFile`. -/
def saveCdrFile (cdrFile : CdrFile) : List CdrStatement × Bool :=
  if answers.insertsCdrFile then ([.insertCdrFile cdrFile], true) else ([], false)

/-- `processFile`: its statements, and whether it returns. -/
def processFile (fileName : String) : List CdrStatement × Bool :=
  let cdrFile : CdrFile := ⟨fileName, 0, 0, 0, [], 0⟩
  match answers.fetch with
  | none => ([], false)
  | some fileContent =>
      match parseFile md5 cdrFile fileContent with
      | .error _ => ([], false)
      | .ok (cdrFile, none) => saveCdrFile answers cdrFile
      | .ok (cdrFile, some calls) =>
          match saveCalls answers calls cdrFile with
          | (_, statements, false) => (statements, false)
          | (cdrFile, statements, true) =>
              let last := saveCdrFile answers cdrFile
              (statements ++ last.1, last.2)

/-- A file with a rejected record is recorded and nothing of it is saved. -/
theorem processFile_of_errors {fileContent : List Char} {parsed : Parsed} (fileName : String)
    (hfetch : answers.fetch = some fileContent) (hparse : parse md5 fileContent = .ok parsed)
    (herrors : 0 < parsed.errorcallscount) :
    processFile md5 answers fileName = saveCdrFile answers ⟨fileName, 0, 0, 0, [], 0⟩ := by
  simp only [processFile, hfetch, parseFile, hparse, if_pos herrors]

/-- A file without a counted error: its calls are saved first. -/
theorem processFile_of_parsed {fileContent : List Char} {parsed : Parsed} (fileName : String)
    (hfetch : answers.fetch = some fileContent) (hparse : parse md5 fileContent = .ok parsed)
    (herrors : parsed.errorcallscount = 0) :
    processFile md5 answers fileName =
      let saved := saveCalls answers parsed.calls
        ⟨fileName, parsed.calls.length, 0, 0, parsed.errorids, 0⟩
      if saved.2.2 then
        (saved.2.1 ++ (saveCdrFile answers saved.1).1, (saveCdrFile answers saved.1).2)
      else (saved.2.1, false) := by
  have hzero : ¬ 0 < parsed.errorcallscount := by omega
  simp only [processFile, hfetch, parseFile, hparse, if_neg hzero]
  rw [herrors]
  rcases saveCalls answers parsed.calls
    ⟨fileName, parsed.calls.length, 0, 0, parsed.errorids, 0⟩ with ⟨cdrFile, statements, done⟩
  cases done with
  | true => rfl
  | false => rfl

theorem processFile_of_parse_error {fileContent : List Char} {e : ParseError} (fileName : String)
    (hfetch : answers.fetch = some fileContent) (hparse : parse md5 fileContent = .error e) :
    processFile md5 answers fileName = ([], false) := by
  simp only [processFile, hfetch, parseFile, hparse]

theorem processFile_of_fetch_error (fileName : String) (hfetch : answers.fetch = none) :
    processFile md5 answers fileName = ([], false) := by
  simp only [processFile, hfetch]

end ProcessFile

/-! ### The loop over the files -/

/-- What is answered in one round of the loop of `run`: the listing, the queries
that fail in the scan of it, and the answers for the file that is chosen. -/
structure Round where
  ls : Option (List String)
  queryFails : String → Bool
  file : FileAnswers

/-- The files recorded as processed, in the order of their records. -/
def recorded (journal : List CdrStatement) : List String :=
  journal.filterMap fun statement =>
    match statement with
    | .insertCdrFile file => some file.fileName
    | _ => none

/-- A failing query counts as processed. -/
def isFileProcessed (journal : List CdrStatement) (round : Round) (fileName : String) : Bool :=
  if round.queryFails fileName then true else (recorded journal).contains fileName

/-- The loop over the reversed listing. -/
def lastNotParsed (isProcessed : String → Bool) : List String → String → String
  | [], lastNotParsedFileName => lastNotParsedFileName
  | fileName :: fileList, lastNotParsedFileName =>
      if isProcessed fileName then lastNotParsedFileName
      else lastNotParsed isProcessed fileList fileName

/-- `getFileNameForParse`; `none` when the listing cannot be fetched. -/
def getFileNameForParse (journal : List CdrStatement) (round : Round) : Option String :=
  round.ls.map fun fileList =>
    lastNotParsed (isFileProcessed journal round) fileList.reverse ""

section Run

variable (md5 : List Char → List UInt8)

/-- One round: the statements, and whether the loop goes on. -/
def playRound (journal : List CdrStatement) (round : Round) : List CdrStatement × Bool :=
  match getFileNameForParse journal round with
  | none => ([], false)
  | some fileName =>
      if fileName ≠ "" then processFile md5 round.file fileName else ([], false)

/-- The loop of `run`, given the answers of its rounds. -/
def runLoop : List Round → List CdrStatement → List CdrStatement
  | [], journal => journal
  | round :: rounds, journal =>
      match playRound md5 journal round with
      | (statements, true) => runLoop rounds (journal ++ statements)
      | (statements, false) => journal ++ statements

/-- `ThreadCdrParser::run`; without a configured host it does nothing. -/
def run (cdrFtpHost : String) (rounds : List Round) (journal : List CdrStatement) :
    List CdrStatement :=
  if cdrFtpHost = "" then journal else runLoop md5 rounds journal

/-- One execution of `run` after another. -/
def runs (cdrFtpHost : String) : List (List Round) → List CdrStatement → List CdrStatement
  | [], journal => journal
  | rounds :: rest, journal => runs cdrFtpHost rest (run md5 cdrFtpHost rounds journal)

end Run

/-! ### The record of a file -/

theorem recorded_append (journal statements : List CdrStatement) :
    recorded (journal ++ statements) = recorded journal ++ recorded statements :=
  List.filterMap_append

theorem recorded_saveOne (answers : FileAnswers) (progress : Nat) (call : CallData) :
    recorded (saveOne answers progress call).1 = [] := by
  unfold saveOne
  split
  · split <;> rfl
  · split
    · rfl
    · rfl
    · split <;> rfl

theorem recorded_saveCalls (answers : FileAnswers) (calls : List CallData) (cdrFile : CdrFile) :
    recorded (saveCalls answers calls cdrFile).2.1 = [] := by
  induction calls generalizing cdrFile with
  | nil => rfl
  | cons call calls ih =>
      rw [saveCalls]
      have hone := recorded_saveOne answers (cdrFile.progress + 1) call
      dsimp only
      split
      · rename_i statements heq
        rw [heq] at hone
        exact hone
      · rename_i statements heq
        rw [heq] at hone
        rw [recorded_append, hone, ih]
        rfl

theorem fileName_saveCalls (answers : FileAnswers) (calls : List CallData) (cdrFile : CdrFile) :
    (saveCalls answers calls cdrFile).1.fileName = cdrFile.fileName := by
  induction calls generalizing cdrFile with
  | nil => rfl
  | cons call calls ih =>
      rw [saveCalls]
      dsimp only
      split
      · rfl
      · exact ih _

theorem recorded_saveCdrFile (answers : FileAnswers) (cdrFile : CdrFile) :
    recorded (saveCdrFile answers cdrFile).1 =
      if (saveCdrFile answers cdrFile).2 then [cdrFile.fileName] else [] := by
  unfold saveCdrFile
  cases answers.insertsCdrFile with
  | true => rfl
  | false => rfl

/-- `processFile` records its file exactly when it returns. -/
theorem recorded_processFile (md5 : List Char → List UInt8) (answers : FileAnswers)
    (fileName : String) :
    recorded (processFile md5 answers fileName).1 =
      if (processFile md5 answers fileName).2 then [fileName] else [] := by
  cases hfetch : answers.fetch with
  | none => rw [processFile_of_fetch_error md5 answers fileName hfetch]; rfl
  | some fileContent =>
      cases hparse : CdrParser.parse md5 fileContent with
      | error e => rw [processFile_of_parse_error md5 answers fileName hfetch hparse]; rfl
      | ok parsed =>
          by_cases herrors : 0 < parsed.errorcallscount
          · rw [processFile_of_errors md5 answers fileName hfetch hparse herrors]
            exact recorded_saveCdrFile answers _
          · rw [processFile_of_parsed md5 answers fileName hfetch hparse (by omega)]
            generalize hfile : (⟨fileName, parsed.calls.length, 0, 0, parsed.errorids, 0⟩ :
              CdrFile) = cdrFile
            have hname : cdrFile.fileName = fileName := by rw [← hfile]
            have hcalls := recorded_saveCalls answers parsed.calls cdrFile
            have hsaved := fileName_saveCalls answers parsed.calls cdrFile
            dsimp only
            by_cases hdone : (saveCalls answers parsed.calls cdrFile).2.2 = true
            · simp only [if_pos hdone]
              rw [recorded_append, hcalls, recorded_saveCdrFile, List.nil_append, hsaved, hname]
            · simp only [if_neg hdone]
              exact hcalls

/-! ### Answers without failures -/

/-- The MD5 digest of the empty text, the only one that the files below need. -/
def emptyDigest : List Char → List UInt8 := fun _ =>
  [0xd4, 0x1d, 0x8c, 0xd9, 0x8f, 0x00, 0xb2, 0x04, 0xe9, 0x80, 0x09, 0x98, 0xec, 0xf8, 0x42, 0x7e]

/-- Every statement succeeds; no unfinished call exists yet. -/
def allSucceed (fileContent : List Char) : FileAnswers where
  fetch := some fileContent
  insertsCdr2 := fun _ => true
  unfinishedExists := fun _ => some false
  insertsUnfinished := fun _ => true
  insertsCdrFile := true

end ThreadCdrParser
end VoipBill
