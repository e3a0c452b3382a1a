import VoipBill.Lib.Text

/-!
# The parser of CDR files

`CdrParser`: a file is cut into records at its `<OT_Call_CDR>` tags, and each
record is parsed on its own.  A record is rejected when a date is too short or
a number is not one; a missing field is only logged and reads as empty text.

The MD5 digest of OpenSSL is a parameter.

Main results:

* `parse_eq`: `Parse` is the cut of the text followed by `ParseCall` on every
  record, with the rejected records counted;
* `parse_ne_fuel`: the loop of `Parse` ends on every text.
-/

namespace VoipBill

open Lib.Text

/-- One call of a CDR file. -/
structure CallData where
  callId : List Char
  srcNumber : List Char
  dstNumber : List Char
  redirectNumber : List Char
  dstReplace : List Char
  setupTime : List Char
  connectTime : List Char
  disconnectTime : List Char
  sessionTime : Nat
  srcRoute : List Char
  dstRoute : List Char
  srcNoa : Nat
  dstNoa : Nat
  disconnectCause : Int
  setupTimeRaw : List Char
  hash : List Char
  callFinished : List Char
  releasingParty : List Char
  releaseTimestamp : List Char
  inSigCallId : List Char
  outSigCallId : List Char
deriving DecidableEq

/-- `boost::iequals(call_finished, "YES")`. -/
def isYes (callFinished : List Char) : Bool :=
  callFinished.map Char.toUpper = "YES".toList

def CallData.isFinished (call : CallData) : Bool := isYes call.callFinished

namespace CdrParser

/-- The text in front of the last occurrence of `closing`. -/
def beforeLast (closing : List Char) : List Char → Option (List Char)
  | [] => none
  | c :: text =>
      match beforeLast closing text with
      | some value => some (c :: value)
      | none => if closing.isPrefixOf (c :: text) then some [] else none

/-- The leftmost match of `opening(.*)closing`; the group is greedy.  The data
has no line breaks, so `.` matches every character of it. -/
def regexSearch (opening closing : List Char) : List Char → Option (List Char)
  | [] => none
  | c :: text =>
      let matched :=
        if opening.isPrefixOf (c :: text) then
          beforeLast closing ((c :: text).drop opening.length)
        else none
      match matched with
      | some value => some value
      | none => regexSearch opening closing text

/-- `GetValue`: a missing field is empty (and logged where it must not be). -/
def getValue (name : String) (data : List Char) : List Char :=
  (regexSearch (name.toList ++ ">".toList) ("</".toList ++ name.toList) data).getD []

def parseDateTime (name : String) (data : List Char) : Option (List Char) :=
  let value := getValue name data
  if value.length = 0 then some []
  else do
    let year ← substr value 0 4
    let month ← substr value 4 2
    let day ← substr value 6 2
    let hour ← substr value 8 2
    let minute ← substr value 10 2
    let second ← substr value 12 2
    let fraction ← substr value 15 6
    return year ++ ['-'] ++ month ++ ['-'] ++ day ++ [' '] ++ hour ++ [':'] ++ minute ++
      [':'] ++ second ++ ['.'] ++ fraction ++ "+00".toList

/-- The number and its nature of address. -/
def parseNumber (name : String) (data : List Char) (canBeEmpty : Bool) :
    Option (List Char × Nat) := do
  let value := getValue name data
  let (number, noa) ←
    if 0 < value.length ∨ canBeEmpty = false then
      let spacepos := find value [' '] 0
      if spacepos ≠ npos then do
        let noaText ← substr value (plus spacepos 1) npos
        let noa ← lexicalCastUnsigned 32 noaText
        some (value.take spacepos, noa)
      else some (value, 3)
    else some ("anonymous".toList, 3)
  return (if 32 < number.length then number.take 32 else number, noa)

def parseSessionTime (name : String) (data : List Char) : Option Nat :=
  let value := getValue name data
  if value.length ≠ 0 then
    let dividerpos := find value [':'] 0
    if dividerpos ≠ npos then
      (lexicalCastUnsigned 64 (value.take dividerpos)).map fun duration => plus duration 1
    else (lexicalCastUnsigned 64 value).map fun duration => plus duration 1
  else some 0

def parseDisconnectCause (name : String) (data : List Char) : Option Int :=
  let value := getValue name data
  let startpos := find value [':'] 0
  if startpos ≠ npos then do
    let endpos := find value [' '] (plus startpos 1)
    let strresultcode ← substr value (plus startpos 1) (endpos - startpos - 1)
    lexicalCastInt strresultcode
  else some 0

/-- A byte as two hexadecimal digits. -/
def hex (byte : UInt8) : List Char :=
  [Nat.digitChar (byte.toNat / 16), Nat.digitChar (byte.toNat % 16)]

section Digest

variable (md5 : List Char → List UInt8)

/-- The text of the digest of the call reference and the start of the call. -/
def calculateHash (callId setupTimeRaw : List Char) : List Char :=
  (md5 (callId ++ setupTimeRaw.take 14)).flatMap hex

/-- `ParseCall`; `none` when an exception rejects the record. -/
def parseCall (rawCallData : List Char) : Option CallData := do
  let callFinished := getValue "CallFinished" rawCallData
  let callIsFinished := isYes callFinished
  let callId := getValue "CallReference" rawCallData
  let inSigCallId := getValue "IncomingSignallingCallID" rawCallData
  let outSigCallId := getValue "OutgoingSignallingCallID" rawCallData
  let (srcNumber, srcNoa) ← parseNumber "IncomingCallingAddress" rawCallData true
  let (dstNumber, dstNoa) ← parseNumber "IncomingCalledAddress" rawCallData (!callIsFinished)
  let (redirectNumber, _) ← parseNumber "IncomingRedirectingAddress" rawCallData true
  let (dstReplace, _) ← parseNumber "OutgoingCalledAddress" rawCallData true
  let setupTime ← parseDateTime "StartTimeStamp" rawCallData
  let connectTime ← parseDateTime "AnswerTimeStamp" rawCallData
  let disconnectTime ← parseDateTime "ReleaseTimeStamp" rawCallData
  let sessionTime ← parseSessionTime "CallDuration" rawCallData
  let srcRoute := getValue "IncomingRouteId" rawCallData
  let dstRoute := getValue "OutgoingRouteId" rawCallData
  let disconnectCause ← parseDisconnectCause "CauseIndicator" rawCallData
  let setupTimeRaw := getValue "StartTimeStamp" rawCallData
  let releasingParty := getValue "ReleasingParty" rawCallData
  let releaseTimestamp ← parseDateTime "ReleaseTimeStamp" rawCallData
  let hash := calculateHash md5 callId setupTimeRaw
  return { callId, srcNumber, dstNumber, redirectNumber, dstReplace, setupTime, connectTime,
           disconnectTime, sessionTime, srcRoute, dstRoute, srcNoa, dstNoa, disconnectCause,
           setupTimeRaw, hash, callFinished, releasingParty, releaseTimestamp, inSigCallId,
           outSigCallId }

end Digest

/-- What `Parse` has collected: the calls and the rejected records. -/
structure Parsed where
  calls : List CallData
  errorcallscount : Nat
  errorids : List Char
deriving DecidableEq

/-- How `Parse` is left other than by its end: `substr` behind the end of the text
is an exception that it does not catch.  `fuel` stands for a loop that goes on. -/
inductive ParseError
  | outOfRange
  | fuel
deriving DecidableEq

def callopentagname : List Char := "<OT_Call_CDR>".toList

def callclosetagname : List Char := "</OT_Call_CDR>".toList

/-- The window of one iteration: where the data of the record begins, how long it
is, and where the next record is. -/
structure Window where
  beginpos : Nat
  datalength : Nat
  nextcallrecordposition : Nat

def window (rawdata : List Char) (position : Nat) : Window :=
  let callrecordposition := find rawdata callopentagname position
  let beginpos := plus callrecordposition callopentagname.length
  let nextcallrecordposition := find rawdata callopentagname beginpos
  let callcloserecordposition := find rawdata callclosetagname beginpos
  let datalength := callcloserecordposition - beginpos
  -- no closing tag in front of the next opening one
  let datalength :=
    if nextcallrecordposition ≠ npos ∧ nextcallrecordposition < callcloserecordposition then
      nextcallrecordposition - beginpos
    else datalength
  -- the last record is not closed
  let datalength :=
    if nextcallrecordposition = npos ∧ callcloserecordposition = npos then npos
    else datalength
  { beginpos, datalength, nextcallrecordposition }

section Loop

variable (md5 : List Char → List UInt8) (rawdata : List Char)

/-- One record: the call is collected, a rejected record is counted. -/
def collect (parsed : Parsed) (rawcalldata : List Char) : Parsed :=
  match parseCall md5 rawcalldata with
  | some call => { parsed with calls := parsed.calls ++ [call] }
  | none =>
      { parsed with
        errorcallscount := (parsed.errorcallscount + 1) % 2 ^ 32
        errorids := parsed.errorids ++ getValue "CallReference" rawcalldata ++ ", ".toList }

/-- The loop of `Parse`, entered with the position `beginpos + datalength`. -/
def parseLoop : Nat → Nat → Parsed → Except ParseError Parsed
  | 0, _, _ => .error .fuel
  | fuel + 1, position, parsed =>
      let w := window rawdata position
      match substr rawdata w.beginpos w.datalength with
      | none => .error .outOfRange
      | some rawcalldata =>
          let parsed := collect md5 parsed rawcalldata
          if w.nextcallrecordposition ≠ npos then
            parseLoop fuel (plus w.beginpos w.datalength) parsed
          else .ok parsed

end Loop

/-- The text without line breaks. -/
def withoutBreaks (rawData : List Char) : List Char :=
  (rawData.filter (· ≠ '\r')).filter (· ≠ '\n')

def parse (md5 : List Char → List UInt8) (rawData : List Char) : Except ParseError Parsed :=
  let rawdata := withoutBreaks rawData
  parseLoop md5 rawdata (rawdata.length + 2) 0 ⟨[], 0, []⟩

/-! ### The records of a text -/

/-- The data of the records, cut as the loop of `Parse` cuts it. -/
def cut (rawdata : List Char) : Nat → Nat → Except ParseError (List (List Char))
  | 0, _ => .error .fuel
  | fuel + 1, position =>
      let w := window rawdata position
      match substr rawdata w.beginpos w.datalength with
      | none => .error .outOfRange
      | some rawcalldata =>
          if w.nextcallrecordposition ≠ npos then
            (cut rawdata fuel (plus w.beginpos w.datalength)).map fun rest => rawcalldata :: rest
          else .ok [rawcalldata]

/-- The records of a file. -/
def records (rawData : List Char) : Except ParseError (List (List Char)) :=
  cut (withoutBreaks rawData) ((withoutBreaks rawData).length + 2) 0

theorem parseLoop_eq (md5 : List Char → List UInt8) (rawdata : List Char) :
    ∀ (fuel position : Nat) (parsed : Parsed),
      parseLoop md5 rawdata fuel position parsed =
        (cut rawdata fuel position).map fun rs => rs.foldl (collect md5) parsed
  | 0, _, _ => rfl
  | fuel + 1, position, parsed => by
      rw [parseLoop, cut]
      cases substr rawdata (window rawdata position).beginpos
          (window rawdata position).datalength with
      | none => rfl
      | some rawcalldata =>
          by_cases hnext : (window rawdata position).nextcallrecordposition ≠ npos
          · simp only [if_pos hnext]
            rw [parseLoop_eq md5 rawdata fuel]
            cases cut rawdata fuel _ with
            | error e => rfl
            | ok rest => rfl
          · simp only [if_neg hnext]
            rfl

section Collected

variable (md5 : List Char → List UInt8)

/-- The calls of the records that `ParseCall` accepts. -/
def accepted (rs : List (List Char)) : List CallData := rs.filterMap (parseCall md5)

/-- The records that `ParseCall` rejects. -/
def rejected (rs : List (List Char)) : List (List Char) :=
  rs.filter fun r => (parseCall md5 r).isNone

theorem calls_foldl_collect (rs : List (List Char)) (parsed : Parsed) :
    (rs.foldl (collect md5) parsed).calls = parsed.calls ++ accepted md5 rs := by
  induction rs generalizing parsed with
  | nil => simp [accepted]
  | cons r rs ih =>
      rw [List.foldl_cons, ih]
      cases hcall : parseCall md5 r with
      | none => simp [collect, accepted, hcall]
      | some call => simp [collect, accepted, hcall]

theorem errorcallscount_foldl_collect (rs : List (List Char)) (parsed : Parsed)
    (hcount : parsed.errorcallscount < 2 ^ 32) :
    (rs.foldl (collect md5) parsed).errorcallscount =
      (parsed.errorcallscount + (rejected md5 rs).length) % 2 ^ 32 := by
  induction rs generalizing parsed with
  | nil =>
      show parsed.errorcallscount = (parsed.errorcallscount + 0) % 2 ^ 32
      omega
  | cons r rs ih =>
      rw [List.foldl_cons]
      cases hcall : parseCall md5 r with
      | none =>
          have hlength : (rejected md5 (r :: rs)).length = (rejected md5 rs).length + 1 := by
            simp [rejected, hcall]
          have hcollect : (collect md5 parsed r).errorcallscount =
              (parsed.errorcallscount + 1) % 2 ^ 32 := by
            simp only [collect, hcall]
          rw [ih _ (by rw [hcollect]; omega), hcollect, hlength]
          omega
      | some call =>
          have hlength : (rejected md5 (r :: rs)).length = (rejected md5 rs).length := by
            simp [rejected, hcall]
          have hcollect : (collect md5 parsed r).errorcallscount = parsed.errorcallscount := by
            simp only [collect, hcall]
          rw [ih _ (by rw [hcollect]; exact hcount), hcollect, hlength]

/-- **What `Parse` returns**: the calls of the accepted records in their order,
and the number of the rejected ones in 32 bits. -/
theorem parse_eq {rawData : List Char} {rs : List (List Char)} (h : records rawData = .ok rs) :
    ∃ errorids, parse md5 rawData =
      .ok ⟨accepted md5 rs, (rejected md5 rs).length % 2 ^ 32, errorids⟩ := by
  let parsed := rs.foldl (collect md5) ⟨[], 0, []⟩
  have hcalls : parsed.calls = accepted md5 rs := by
    simpa using calls_foldl_collect md5 rs ⟨[], 0, []⟩
  have hcount : parsed.errorcallscount = (rejected md5 rs).length % 2 ^ 32 := by
    simpa using errorcallscount_foldl_collect md5 rs ⟨[], 0, []⟩ (by norm_num)
  refine ⟨parsed.errorids, ?_⟩
  rw [parse, parseLoop_eq, ← hcalls, ← hcount]
  rw [records] at h
  simp only [h]
  rfl

theorem parse_error {rawData : List Char} {e : ParseError} (h : records rawData = .error e) :
    parse md5 rawData = .error e := by
  rw [parse, parseLoop_eq]
  rw [records] at h
  simp only [h]
  rfl

end Collected

/-! ### The loop ends -/

section Termination

variable {rawdata : List Char}

/-- Behind a record the next one is found again: its opening tag lies at or behind
the place where the window ends. -/
theorem find_next (hshort : rawdata.length < npos) {position : Nat}
    (hcall : find rawdata callopentagname position ≠ npos)
    (hnext : (window rawdata position).nextcallrecordposition ≠ npos) :
    find rawdata callopentagname
        (plus (window rawdata position).beginpos (window rawdata position).datalength) =
      (window rawdata position).nextcallrecordposition ∧
    find rawdata callopentagname position <
      (window rawdata position).nextcallrecordposition := by
  have hopen : callopentagname ≠ [] := by decide
  have hclose : callclosetagname ≠ [] := by decide
  have hlength : callopentagname.length = 13 := by decide
  have hcallbound := find_bound hopen hcall
  set call := find rawdata callopentagname position with hcalldef
  have hbegin : plus call callopentagname.length = call + 13 := by
    rw [plus, hlength]
    unfold npos at hshort
    omega
  have hnextdef : (window rawdata position).nextcallrecordposition =
      find rawdata callopentagname (call + 13) := by
    show find rawdata callopentagname (plus call callopentagname.length) = _
    rw [hbegin]
  rw [hnextdef] at hnext ⊢
  set next := find rawdata callopentagname (call + 13) with hnextpos
  set close := find rawdata callclosetagname (call + 13) with hclosepos
  have hle : call + 13 ≤ next := le_find (by unfold npos at *; omega)
  have hcloselower : call + 13 ≤ close := le_find (by unfold npos at *; omega)
  have hnextbound := find_bound hopen hnext
  -- the window ends at the next opening tag or at a closing tag in front of it
  have hend : call + 13 ≤ plus (window rawdata position).beginpos
        (window rawdata position).datalength ∧
      plus (window rawdata position).beginpos (window rawdata position).datalength ≤ next := by
    have hbeginpos : (window rawdata position).beginpos = call + 13 := hbegin
    have hdatalength : (window rawdata position).datalength =
        if next < close then next - (call + 13) else close - (call + 13) := by
      simp only [window, ← hcalldef, hbegin, ← hnextpos, ← hclosepos, hnext, ne_eq,
        not_false_eq_true, true_and, false_and, if_false]
    rw [hbeginpos, hdatalength, plus]
    unfold npos at hshort
    split <;> omega
  exact ⟨find_of_le hopen hnext hend.1 hend.2, by omega⟩

theorem cut_ne_fuel_of_found (hshort : rawdata.length < npos) :
    ∀ (fuel position : Nat), find rawdata callopentagname position ≠ npos →
      rawdata.length < fuel + find rawdata callopentagname position →
      cut rawdata fuel position ≠ .error .fuel
  | 0, position, hcall, hfuel => by
      have hbound := find_bound (by decide) hcall
      omega
  | fuel + 1, position, hcall, hfuel => by
      rw [cut]
      cases substr rawdata (window rawdata position).beginpos
          (window rawdata position).datalength with
      | none => simp
      | some rawcalldata =>
          by_cases hnext : (window rawdata position).nextcallrecordposition = npos
          · simp [hnext]
          · obtain ⟨hfound, hlt⟩ := find_next hshort hcall hnext
            have hrest := cut_ne_fuel_of_found hshort fuel
              (plus (window rawdata position).beginpos (window rawdata position).datalength)
              (by rw [hfound]; exact hnext) (by rw [hfound]; omega)
            simp only [if_pos (show (window rawdata position).nextcallrecordposition ≠ npos from
              hnext)]
            cases hcut : cut rawdata fuel
                (plus (window rawdata position).beginpos
                  (window rawdata position).datalength) with
            | ok rest => simp [Except.map]
            | error e =>
                rw [hcut] at hrest
                simpa [Except.map] using hrest

/-- Without an opening tag the loop ends after one iteration. -/
theorem cut_ne_fuel_of_not_found (hshort : rawdata.length < npos)
    (hcall : find rawdata callopentagname 0 = npos) (fuel : Nat) :
    cut rawdata (fuel + 1) 0 ≠ .error .fuel := by
  have hnext : (window rawdata 0).nextcallrecordposition = npos :=
    find_eq_npos_of_le hshort hcall (Nat.zero_le _)
  rw [cut]
  cases substr rawdata (window rawdata 0).beginpos (window rawdata 0).datalength with
  | none => simp
  | some rawcalldata => simp [hnext]

end Termination

/-- **The loop of `Parse` ends** on every text that fits into a string. -/
theorem parse_ne_fuel (md5 : List Char → List UInt8) {rawData : List Char}
    (hshort : rawData.length < npos) : parse md5 rawData ≠ .error .fuel := by
  have hle : (withoutBreaks rawData).length ≤ rawData.length :=
    (List.length_filter_le _ _).trans (List.length_filter_le _ _)
  have hcut : records rawData ≠ .error .fuel := by
    rw [records]
    by_cases hcall : find (withoutBreaks rawData) callopentagname 0 = npos
    · exact cut_ne_fuel_of_not_found (by omega) hcall _
    · exact cut_ne_fuel_of_found (by omega) _ 0 hcall (by omega)
  cases hrecords : records rawData with
  | ok rs =>
      obtain ⟨errorids, hparse⟩ := parse_eq md5 hrecords
      rw [hparse]
      simp
  | error e =>
      rw [parse_error md5 hrecords]
      rw [hrecords] at hcut
      simpa using hcut

end CdrParser
end VoipBill
