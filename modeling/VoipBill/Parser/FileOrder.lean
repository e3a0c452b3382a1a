import VoipBill.Parser.ThreadCdrParser

/-!
# The order in which CDR files are processed

The scan of `getFileNameForParse` goes backward from the newest file and stops at
the first one that it takes for processed.  As long as the recorded files are the
first ones of the listing, it arrives at the oldest file that is not recorded.

A failing query counts as processed.  On the newest file that is harmless, the
round does nothing; on an older file that is not recorded the scan stops too
early, the file behind it is recorded and the older one is never seen again.

* `recorded_playRound_iff`: what one round does to the order;
* `recorded_runs_prefix`: whole sequences of runs.
-/

namespace VoipBill
namespace ThreadCdrParser

/-! ### The scan -/

section Scan

variable {isProcessed : String → Bool}

theorem lastNotParsed_append {files : List String} (older : List String) (last : String)
    (h : ∀ name ∈ files, isProcessed name = false) :
    lastNotParsed isProcessed (files ++ older) last =
      lastNotParsed isProcessed older (files.getLast?.getD last) := by
  induction files generalizing last with
  | nil => rfl
  | cons name files ih =>
      have hname := h name List.mem_cons_self
      have hfiles : ∀ other ∈ files, isProcessed other = false := fun other hother =>
        h other (List.mem_cons_of_mem name hother)
      rw [List.cons_append, lastNotParsed, hname, if_neg (by simp), ih name hfiles]
      cases files with
      | nil => rfl
      | cons next files => simp [List.getLast?_cons]

theorem lastNotParsed_of_processed {older : List String} (last : String)
    (h : ∀ name, older.head? = some name → isProcessed name = true) :
    lastNotParsed isProcessed older last = last := by
  cases older with
  | nil => rfl
  | cons name older =>
      rw [lastNotParsed, h name rfl]
      rfl

/-- The scan of a listing whose newest part is not processed, up to a processed
file or the end of the listing: it arrives at the oldest file of that part. -/
theorem lastNotParsed_reverse {older newer : List String}
    (hnewer : ∀ name ∈ newer, isProcessed name = false)
    (holder : ∀ name, older.getLast? = some name → isProcessed name = true) :
    lastNotParsed isProcessed (older ++ newer).reverse "" = newer.head?.getD "" := by
  rw [List.reverse_append, lastNotParsed_append _ _ (by simpa using hnewer),
    lastNotParsed_of_processed _ (by simpa using holder), List.getLast?_reverse]

end Scan

/-! ### What one round records -/

/-- A round that chooses no file does nothing; otherwise it records the file that it
chooses, if processing returns. -/
theorem recorded_playRound (md5 : List Char → List UInt8) {journal : List CdrStatement}
    {round : Round} {listing : List String} (hls : round.ls = some listing) :
    recorded (playRound md5 journal round).1 =
      let chosen := lastNotParsed (isFileProcessed journal round) listing.reverse ""
      if chosen ≠ "" ∧ (processFile md5 round.file chosen).2 then [chosen] else [] := by
  have hname : getFileNameForParse journal round =
      some (lastNotParsed (isFileProcessed journal round) listing.reverse "") := by
    rw [getFileNameForParse, hls, Option.map_some]
  simp only [playRound, hname]
  by_cases hempty : lastNotParsed (isFileProcessed journal round) listing.reverse "" = ""
  · simp [hempty, recorded]
  · simp only [ne_eq, hempty, not_false_eq_true, if_true, true_and]
    exact recorded_processFile md5 round.file _

theorem playRound_of_ls_error (md5 : List Char → List UInt8) {journal : List CdrStatement}
    {round : Round} (hls : round.ls = none) : (playRound md5 journal round).1 = [] := by
  simp only [playRound, getFileNameForParse, hls, Option.map_none]

/-! ### The order of one round -/

/-- The failing queries of a round do no harm: the query for the newest file fails,
so that the round does nothing, or no query fails for a file that is not recorded. -/
def Harmless (journal : List CdrStatement) (round : Round) : Prop :=
  ∀ listing ∈ round.ls,
    (∃ newest ∈ listing.getLast?, round.queryFails newest = true) ∨
      ∀ name ∈ listing, name ∉ recorded journal → round.queryFails name = false

instance (journal : List CdrStatement) (round : Round) : Decidable (Harmless journal round) :=
  inferInstanceAs (Decidable (∀ listing ∈ round.ls, _))

section Round

variable {md5 : List Char → List UInt8} {journal : List CdrStatement} {round : Round}

theorem isFileProcessed_of_mem {name : String} (h : name ∈ recorded journal) :
    isFileProcessed journal round name = true := by
  unfold isFileProcessed
  split
  · rfl
  · exact List.contains_iff_mem.mpr h

theorem isFileProcessed_of_not_mem {name : String} (h : name ∉ recorded journal) :
    isFileProcessed journal round name = round.queryFails name := by
  unfold isFileProcessed
  cases round.queryFails name with
  | true => rfl
  | false => simpa using h

theorem not_mem_of_nodup {older newer : List String} (h : (older ++ newer).Nodup) {name : String}
    (hname : name ∈ newer) : name ∉ older := by
  intro holder
  exact (List.nodup_append.mp h).2.2 name holder name hname rfl

/-- The file chosen when no query for a file that is not recorded fails. -/
theorem chosen_of_no_failure {rest : List String}
    (hnodup : (recorded journal ++ rest).Nodup)
    (hqueries : ∀ name ∈ rest, round.queryFails name = false) :
    lastNotParsed (isFileProcessed journal round) (recorded journal ++ rest).reverse "" =
      rest.head?.getD "" := by
  apply lastNotParsed_reverse
  · intro name hname
    rw [isFileProcessed_of_not_mem (not_mem_of_nodup hnodup hname)]
    exact hqueries name hname
  · intro name hlast
    exact isFileProcessed_of_mem (List.mem_of_getLast? hlast)

/-- No file is chosen when the query for the newest one fails. -/
theorem chosen_of_newest_failure {listing : List String} {newest : String}
    (hlast : listing.getLast? = some newest) (hfails : round.queryFails newest = true) :
    lastNotParsed (isFileProcessed journal round) listing.reverse "" = "" := by
  apply lastNotParsed_of_processed
  intro name hname
  rw [List.head?_reverse, hlast, Option.some.injEq] at hname
  rw [← hname, isFileProcessed, if_pos hfails]

/-- **A harmless round keeps the order.** -/
theorem recorded_playRound_prefix {listing : List String} (hls : round.ls = some listing)
    (hnodup : listing.Nodup) (horder : recorded journal <+: listing)
    (hharmless : Harmless journal round) :
    recorded (journal ++ (playRound md5 journal round).1) <+: listing := by
  rw [recorded_append, recorded_playRound md5 hls]
  dsimp only
  obtain ⟨rest, rfl⟩ := horder
  rcases hharmless _ hls with ⟨newest, hlast, hfails⟩ | hqueries
  · rw [chosen_of_newest_failure hlast hfails]
    simp
  · have hrest : ∀ name ∈ rest, round.queryFails name = false := fun name hname =>
      hqueries name (List.mem_append_right _ hname) (not_mem_of_nodup hnodup hname)
    rw [chosen_of_no_failure hnodup hrest]
    cases rest with
    | nil => simp
    | cons next rest =>
        split
        · exact ⟨rest, by simp⟩
        · exact ⟨next :: rest, by simp⟩

/-- The last element with a property, and what follows it. -/
theorem exists_last {α : Type} {p : α → Prop} {l : List α} (h : ∃ x ∈ l, p x) :
    ∃ before x after, l = before ++ x :: after ∧ p x ∧ ∀ y ∈ after, ¬ p y := by
  induction l with
  | nil => simp at h
  | cons a l ih =>
      by_cases hrest : ∃ x ∈ l, p x
      · obtain ⟨before, x, after, hl, hx, hafter⟩ := ih hrest
        exact ⟨a :: before, x, after, by rw [hl, List.cons_append], hx, hafter⟩
      · obtain ⟨x, hx, hpx⟩ := h
        rcases List.mem_cons.mp hx with rfl | hmem
        · exact ⟨[], x, l, rfl, hpx, fun y hy hpy => hrest ⟨y, hy, hpy⟩⟩
        · exact absurd ⟨x, hmem, hpx⟩ hrest

/-- **The order after a round that records a file**: it is kept exactly when the
failing queries of the round do no harm. -/
theorem recorded_playRound_iff {listing : List String} (hls : round.ls = some listing)
    (hnodup : listing.Nodup) (hnames : "" ∉ listing)
    (hreturns : ∀ name, (processFile md5 round.file name).2 = true)
    (horder : recorded journal <+: listing) :
    recorded (journal ++ (playRound md5 journal round).1) <+: listing ↔
      Harmless journal round := by
  refine ⟨fun hafter => ?_, recorded_playRound_prefix hls hnodup horder⟩
  intro listing' hls'
  obtain rfl : listing = listing' := by
    rw [hls, Option.mem_some_iff] at hls'
    exact hls'
  by_contra hharm
  rw [not_or] at hharm
  obtain ⟨hnewest, hqueries⟩ := hharm
  obtain ⟨rest, rfl⟩ := horder
  have hfails : ∃ name ∈ rest, round.queryFails name = true := by
    by_contra hnone
    refine hqueries fun name hname hnew => ?_
    by_contra hfails
    refine hnone ⟨name, ?_, by simpa using hfails⟩
    exact (List.mem_append.mp hname).resolve_left hnew
  obtain ⟨before, failing, after, rfl, hfailing, hafterOk⟩ := exists_last hfails
  -- the scan stops at the failing query and the file behind it is recorded
  have hnonempty : after ≠ [] := by
    rintro rfl
    exact hnewest ⟨failing, by simp, hfailing⟩
  obtain ⟨next, after, rfl⟩ := List.exists_cons_of_ne_nil hnonempty
  have hchosen : lastNotParsed (isFileProcessed journal round)
      (recorded journal ++ (before ++ failing :: next :: after)).reverse "" = next := by
    have hsplit : recorded journal ++ (before ++ failing :: next :: after) =
        (recorded journal ++ before ++ [failing]) ++ (next :: after) := by simp
    rw [hsplit, lastNotParsed_reverse]
    · rfl
    · intro name hname
      have hmem : name ∈ before ++ failing :: next :: after := by
        rw [List.mem_append]
        exact Or.inr (List.mem_cons_of_mem failing hname)
      rw [isFileProcessed_of_not_mem (not_mem_of_nodup hnodup hmem)]
      simpa using hafterOk name hname
    · intro name hname
      rw [List.getLast?_append, List.getLast?_singleton, Option.some_or, Option.some.injEq] at hname
      rw [← hname, isFileProcessed, if_pos hfailing]
  have hne : next ≠ "" := by
    rintro rfl
    exact hnames (by simp)
  rw [recorded_append, recorded_playRound md5 hls] at hafter
  simp only [hchosen, ne_eq, hne, not_false_eq_true, hreturns next, and_self, if_true] at hafter
  rw [List.prefix_append_right_inj] at hafter
  have hdistinct := (List.nodup_append.mp hnodup).2.1
  cases before with
  | nil =>
      have hhead : next = failing := by simpa using hafter
      subst hhead
      simp at hdistinct
  | cons first before =>
      have hhead : next = first := by simpa using hafter
      subst hhead
      simp at hdistinct

end Round

/-! ### Sequences of runs -/

section Runs

variable (md5 : List Char → List UInt8)

/-- The rounds that the loop of `run` goes through, each with the journal it finds. -/
def loopRounds : List Round → List CdrStatement → List (List CdrStatement × Round)
  | [], _ => []
  | round :: rounds, journal =>
      (journal, round) ::
        if (playRound md5 journal round).2 then
          loopRounds rounds (journal ++ (playRound md5 journal round).1)
        else []

/-- The rounds of one execution of `run` after another. -/
def roundsOf (cdrFtpHost : String) :
    List (List Round) → List CdrStatement → List (List CdrStatement × Round)
  | [], _ => []
  | rounds :: rest, journal =>
      (if cdrFtpHost = "" then [] else loopRounds md5 rounds journal) ++
        roundsOf cdrFtpHost rest (run md5 cdrFtpHost rounds journal)

/-- The listings that the rounds see. -/
def listings (rounds : List (List CdrStatement × Round)) : List (List String) :=
  rounds.filterMap fun visited => visited.2.ls

theorem listings_append (rounds rounds' : List (List CdrStatement × Round)) :
    listings (rounds ++ rounds') = listings rounds ++ listings rounds' :=
  List.filterMap_append

/-- Listings that only grow at the end. -/
def Grows (seen : List (List String)) : Prop := seen.Pairwise (· <+: ·)

/-- One round followed by others keeps the recorded files the first ones of every
later listing. -/
theorem recorded_prefix_of_round {journal : List CdrStatement} {round : Round}
    {later : List (List String)} {rounds : List (List CdrStatement × Round)}
    (hharmless : Harmless journal round)
    (hgrows : Grows (listings ((journal, round) :: rounds) ++ later))
    (hnodup : ∀ listing ∈ listings ((journal, round) :: rounds), listing.Nodup)
    (horder : ∀ listing ∈ listings ((journal, round) :: rounds) ++ later,
      recorded journal <+: listing) :
    ∀ listing ∈ listings rounds ++ later,
      recorded (journal ++ (playRound md5 journal round).1) <+: listing := by
  intro listing hlisting
  cases hls : round.ls with
  | none =>
      have hsame : listings ((journal, round) :: rounds) = listings rounds := by
        rw [listings, List.filterMap_cons_none (by exact hls), listings]
      rw [playRound_of_ls_error md5 hls, List.append_nil]
      exact horder listing (by rwa [hsame])
  | some seen =>
      have hsplit : listings ((journal, round) :: rounds) = seen :: listings rounds := by
        rw [listings, List.filterMap_cons_some (by exact hls), listings]
      rw [hsplit] at hgrows hnodup horder
      have hstep : recorded (journal ++ (playRound md5 journal round).1) <+: seen :=
        recorded_playRound_prefix hls (hnodup seen List.mem_cons_self) (horder seen (by simp))
          hharmless
      exact hstep.trans ((List.pairwise_cons.mp hgrows).1 listing hlisting)

theorem recorded_runLoop_prefix {rounds : List Round} {journal : List CdrStatement}
    {later : List (List String)}
    (hharmless : ∀ visited ∈ loopRounds md5 rounds journal, Harmless visited.1 visited.2)
    (hgrows : Grows (listings (loopRounds md5 rounds journal) ++ later))
    (hnodup : ∀ listing ∈ listings (loopRounds md5 rounds journal), listing.Nodup)
    (horder : ∀ listing ∈ listings (loopRounds md5 rounds journal) ++ later,
      recorded journal <+: listing) :
    ∀ listing ∈ later, recorded (runLoop md5 rounds journal) <+: listing := by
  induction rounds generalizing journal with
  | nil =>
      intro listing hlisting
      exact horder listing (List.mem_append_right _ hlisting)
  | cons round rounds ih =>
      rw [loopRounds] at hharmless hgrows hnodup horder
      have hround := recorded_prefix_of_round md5 (hharmless _ List.mem_cons_self) hgrows hnodup
        horder
      -- the loop goes on after a round, or ends with it
      have hplay : runLoop md5 (round :: rounds) journal =
          if (playRound md5 journal round).2 then
            runLoop md5 rounds (journal ++ (playRound md5 journal round).1)
          else journal ++ (playRound md5 journal round).1 := by
        rw [runLoop]
        rcases playRound md5 journal round with ⟨statements, goesOn⟩
        cases goesOn with
        | true => rfl
        | false => rfl
      rw [hplay]
      by_cases hgoes : (playRound md5 journal round).2 = true
      · rw [if_pos hgoes] at hround hgrows hnodup hharmless ⊢
        have hsub : (listings (loopRounds md5 rounds
              (journal ++ (playRound md5 journal round).1)) ++ later).Sublist
            (listings ((journal, round) :: loopRounds md5 rounds
              (journal ++ (playRound md5 journal round).1)) ++ later) :=
          ((List.sublist_cons_self _ _).filterMap _).append_right later
        exact ih (fun visited h => hharmless visited (List.mem_cons_of_mem _ h))
          (List.Pairwise.sublist hsub hgrows)
          (fun listing h => hnodup listing
            (((List.sublist_cons_self _ _).filterMap _).mem h)) hround
      · rw [if_neg hgoes] at hround ⊢
        simpa [listings] using hround

theorem nodup_of_sorted {listing : List String} (h : listing.Pairwise (· < ·)) :
    listing.Nodup := by
  refine List.Pairwise.imp ?_ h
  rintro name other hlt rfl
  exact String.lt_irrefl name hlt

/-- **No file is skipped.**  Over sorted listings that only grow at the end, if the
failing queries of every round do no harm, then whatever else fails the files
recorded as processed are the first ones of the listing. -/
theorem recorded_runs_prefix (cdrFtpHost : String) (scripts : List (List Round))
    (journal : List CdrStatement) (listing : List String)
    (hharmless : ∀ visited ∈ roundsOf md5 cdrFtpHost scripts journal,
      Harmless visited.1 visited.2)
    (hsorted : ∀ seen ∈ listings (roundsOf md5 cdrFtpHost scripts journal),
      seen.Pairwise (· < ·))
    (hgrows : Grows (listings (roundsOf md5 cdrFtpHost scripts journal) ++ [listing]))
    (horder : ∀ seen ∈ listings (roundsOf md5 cdrFtpHost scripts journal) ++ [listing],
      recorded journal <+: seen) :
    recorded (runs md5 cdrFtpHost scripts journal) <+: listing := by
  induction scripts generalizing journal with
  | nil => exact horder listing (by simp)
  | cons rounds rest ih =>
      by_cases hhost : cdrFtpHost = ""
      · have hrun : run md5 cdrFtpHost rounds journal = journal := by rw [run, if_pos hhost]
        have hrounds : roundsOf md5 cdrFtpHost (rounds :: rest) journal =
            roundsOf md5 cdrFtpHost rest journal := by
          rw [roundsOf, if_pos hhost, hrun, List.nil_append]
        rw [hrounds] at hharmless hsorted hgrows horder
        rw [runs, hrun]
        exact ih journal hharmless hsorted hgrows horder
      · have hrun : run md5 cdrFtpHost rounds journal = runLoop md5 rounds journal := by
          rw [run, if_neg hhost]
        have hrounds : roundsOf md5 cdrFtpHost (rounds :: rest) journal =
            loopRounds md5 rounds journal ++
              roundsOf md5 cdrFtpHost rest (runLoop md5 rounds journal) := by
          rw [roundsOf, if_neg hhost, hrun]
        rw [hrounds] at hharmless hsorted hgrows horder
        rw [listings_append] at hsorted hgrows horder
        rw [List.append_assoc] at hgrows horder
        rw [runs, hrun]
        have hfirst := recorded_runLoop_prefix md5
          (fun visited h => hharmless visited (List.mem_append_left _ h)) hgrows
          (fun seen h => nodup_of_sorted (hsorted seen (List.mem_append_left _ h))) horder
        exact ih (runLoop md5 rounds journal)
          (fun visited h => hharmless visited (List.mem_append_right _ h))
          (fun seen h => hsorted seen (List.mem_append_right _ h))
          (List.pairwise_append.mp hgrows).2.1 hfirst

end Runs

/-! ### A query that fails in the middle of a listing -/

/-- A round over three files; the query for `failing` fails. -/
def threeFiles (failing : String) : Round where
  ls := some ["20160101.xml", "20160102.xml", "20160103.xml"]
  queryFails := fun name => name = failing
  file := allSucceed "<OT_Call_CDR></OT_Call_CDR>".toList

/-- The query for the second of three new files fails once: the third one is
recorded, and later rounds without any failure leave the first two behind. -/
theorem middle_failure_skips_files :
    ∃ (scripts : List (List Round)) (listing : List String),
      (∀ seen ∈ listings (roundsOf emptyDigest "ftp" scripts []), seen.Pairwise (· < ·)) ∧
      Grows (listings (roundsOf emptyDigest "ftp" scripts []) ++ [listing]) ∧
      (∀ seen ∈ listings (roundsOf emptyDigest "ftp" scripts []) ++ [listing],
        recorded [] <+: seen) ∧
      ¬ recorded (runs emptyDigest "ftp" scripts []) <+: listing := by
  refine ⟨[[threeFiles "20160102.xml", threeFiles ""], [threeFiles ""]],
    ["20160101.xml", "20160102.xml", "20160103.xml"], ?_⟩
  have hseen : listings (roundsOf emptyDigest "ftp"
      [[threeFiles "20160102.xml", threeFiles ""], [threeFiles ""]] []) =
      [["20160101.xml", "20160102.xml", "20160103.xml"],
        ["20160101.xml", "20160102.xml", "20160103.xml"],
        ["20160101.xml", "20160102.xml", "20160103.xml"]] := by decide +kernel
  have hrecorded : recorded (runs emptyDigest "ftp"
      [[threeFiles "20160102.xml", threeFiles ""], [threeFiles ""]] []) = ["20160103.xml"] := by
    decide +kernel
  rw [hseen, hrecorded]
  refine ⟨by decide +kernel, by unfold Grows; decide +kernel, by decide +kernel, by decide +kernel⟩

/-- Two runs over three files, one of them with a failing query for the newest one. -/
theorem three_files_in_order :
    recorded (runs emptyDigest "ftp"
      [[threeFiles "20160103.xml"], [threeFiles "", threeFiles ""]] []) <+:
      ["20160101.xml", "20160102.xml", "20160103.xml"] := by
  apply recorded_runs_prefix emptyDigest "ftp"
    [[threeFiles "20160103.xml"], [threeFiles "", threeFiles ""]] []
    ["20160101.xml", "20160102.xml", "20160103.xml"]
  · decide +kernel
  · decide +kernel
  · unfold Grows; decide +kernel
  · decide +kernel

end ThreadCdrParser
end VoipBill
