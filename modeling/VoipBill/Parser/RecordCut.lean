import VoipBill.Parser.CdrParser

/-!
# Where the records of a file are cut

A record of a text is what follows an opening tag, up to the first closing tag or the next
opening one.  `Parse` cuts these records if the text has one.  Without an opening tag the
first search answers `npos`, and the text from its twelfth character on is taken for a record,
or an exception is thrown if it is shorter.

* `tagged`: what follows the opening tags;
* `cut_eq`: behind an opening tag the loop cuts the records of the text;
* `splits_iff`: when `Parse` loses no record and returns.
-/

namespace VoipBill

open Lib.Text

namespace CdrParser

/-- What follows the opening tags of a text, tag by tag. -/
def tagged : List Char → List (List Char)
  | [] => []
  | c :: text =>
      if callopentagname.isPrefixOf (c :: text) then
        (c :: text).drop callopentagname.length :: tagged text
      else tagged text

/-- A record: up to the first closing tag, the next opening one, or the end. -/
def recordOf (rest : List Char) : List Char :=
  rest.take (min ((indexOf callclosetagname rest).getD rest.length)
    ((indexOf callopentagname rest).getD rest.length))

/-- The records of a file by its tags. -/
def taggedRecords (rawData : List Char) : List (List Char) :=
  (tagged (withoutBreaks rawData)).map recordOf

/-! ### Opening tags and searches -/

theorem tagged_of_indexOf_none {text : List Char} (h : indexOf callopentagname text = none) :
    tagged text = [] := by
  induction text with
  | nil => rfl
  | cons c text ih =>
      rw [indexOf] at h
      by_cases hprefix : callopentagname.isPrefixOf (c :: text)
      · rw [if_pos hprefix] at h
        exact absurd h (by simp)
      · rw [if_neg hprefix, Option.map_eq_none_iff] at h
        rw [tagged, if_neg hprefix]
        exact ih h

/-- A tag begins with `<`. -/
theorem not_isPrefixOf_of_ne {c : Char} (hc : c ≠ '<') (text : List Char) :
    ¬ callopentagname.isPrefixOf (c :: text) = true := by
  have htag : callopentagname = '<' :: "OT_Call_CDR>".toList := by decide
  rw [htag, List.isPrefixOf_iff_prefix, List.cons_prefix_cons]
  exact fun h => hc h.1.symm

theorem tagged_append_of_notMem {inner : List Char} (h : '<' ∉ inner) (rest : List Char) :
    tagged (inner ++ rest) = tagged rest := by
  induction inner with
  | nil => rfl
  | cons c inner ih =>
      have hc : c ≠ '<' := fun heq => h (heq ▸ List.mem_cons_self)
      rw [List.cons_append, tagged, if_neg (not_isPrefixOf_of_ne hc _)]
      exact ih fun hmem => h (List.mem_cons_of_mem _ hmem)

/-- No opening tag begins inside another one. -/
theorem tagged_append (rest : List Char) :
    tagged (callopentagname ++ rest) = rest :: tagged rest := by
  have htag : callopentagname = '<' :: "OT_Call_CDR>".toList := by decide
  have hprefix : callopentagname.isPrefixOf (callopentagname ++ rest) = true :=
    List.isPrefixOf_iff_prefix.mpr (List.prefix_append _ _)
  have hdrop : (callopentagname ++ rest).drop callopentagname.length = rest := List.drop_left
  have hinner := tagged_append_of_notMem (show '<' ∉ "OT_Call_CDR>".toList by decide) rest
  rw [← hinner]
  nth_rewrite 1 [htag]
  rw [List.cons_append, tagged, ← List.cons_append, ← htag, if_pos hprefix, hdrop, hinner]

theorem tagged_of_indexOf_some {text : List Char} {offset : Nat}
    (h : indexOf callopentagname text = some offset) :
    tagged text = text.drop (offset + callopentagname.length) ::
      tagged (text.drop (offset + callopentagname.length)) := by
  induction text generalizing offset with
  | nil =>
      rw [indexOf, if_neg (by decide)] at h
      exact absurd h (by simp)
  | cons c text ih =>
      rw [indexOf] at h
      by_cases hprefix : callopentagname.isPrefixOf (c :: text)
      · rw [if_pos hprefix, Option.some.injEq] at h
        obtain ⟨rest, hrest⟩ := List.isPrefixOf_iff_prefix.mp hprefix
        rw [← h, ← hrest, Nat.zero_add, List.drop_left]
        exact tagged_append rest
      · rw [if_neg hprefix, Option.map_eq_some_iff] at h
        obtain ⟨below, hbelow, hoffset⟩ := h
        rw [tagged, if_neg hprefix, ih hbelow, ← hoffset]
        rfl

variable {rawdata : List Char}

theorem find_eq_npos_iff {needle : List Char} {position : Nat} (hshort : rawdata.length < npos)
    (hneedle : needle ≠ []) (hposition : position ≤ rawdata.length) :
    find rawdata needle position = npos ↔ indexOf needle (rawdata.drop position) = none := by
  unfold find
  rw [if_pos hposition]
  cases hindex : indexOf needle (rawdata.drop position) with
  | none => simp
  | some offset =>
      have hbound := indexOf_bound hneedle hindex
      rw [List.length_drop] at hbound
      refine iff_of_false ?_ (by simp)
      show position + offset ≠ npos
      omega

theorem indexOf_of_find {needle : List Char} {position : Nat}
    (hposition : position ≤ rawdata.length) (hfind : find rawdata needle position ≠ npos) :
    indexOf needle (rawdata.drop position) = some (find rawdata needle position - position) := by
  unfold find at hfind ⊢
  rw [if_pos hposition] at hfind ⊢
  cases hindex : indexOf needle (rawdata.drop position) with
  | none => rw [hindex] at hfind; exact absurd rfl hfind
  | some offset =>
      show some offset = some (position + offset - position)
      rw [Nat.add_sub_cancel_left]

/-- Behind a position the text has the tag that is found from there, and those behind it. -/
theorem tagged_drop {position : Nat} (hshort : rawdata.length < npos)
    (hposition : position ≤ rawdata.length)
    (hfind : find rawdata callopentagname position ≠ npos) :
    tagged (rawdata.drop position) =
      rawdata.drop (find rawdata callopentagname position + 13) ::
        tagged (rawdata.drop (find rawdata callopentagname position + 13)) := by
  have hlength : callopentagname.length = 13 := by decide
  have hle := @le_find rawdata callopentagname position (by omega)
  rw [tagged_of_indexOf_some (indexOf_of_find hposition hfind), List.drop_drop, hlength,
    show position + (find rawdata callopentagname position - position + 13) =
      find rawdata callopentagname position + 13 by omega]

theorem tagged_drop_of_npos {position : Nat} (hshort : rawdata.length < npos)
    (hposition : position ≤ rawdata.length)
    (hfind : find rawdata callopentagname position = npos) :
    tagged (rawdata.drop position) = [] :=
  tagged_of_indexOf_none ((find_eq_npos_iff hshort (by decide) hposition).mp hfind)

/-! ### The records the loop cuts -/

/-- Where a search ends, as an offset into the text behind a position. -/
theorem getD_indexOf {needle : List Char} {position : Nat} (hshort : rawdata.length < npos)
    (hneedle : needle ≠ []) (hposition : position ≤ rawdata.length) :
    (indexOf needle (rawdata.drop position)).getD (rawdata.drop position).length =
      if find rawdata needle position = npos then rawdata.length - position
      else find rawdata needle position - position := by
  by_cases hfind : find rawdata needle position = npos
  · rw [if_pos hfind, (find_eq_npos_iff hshort hneedle hposition).mp hfind, Option.getD_none,
      List.length_drop]
  · rw [if_neg hfind, indexOf_of_find hposition hfind, Option.getD_some]

/-- The window of a found tag holds the record behind it. -/
theorem substr_window {position : Nat} (hshort : rawdata.length < npos)
    (hcall : find rawdata callopentagname position ≠ npos) :
    substr rawdata (window rawdata position).beginpos (window rawdata position).datalength =
      some (recordOf (rawdata.drop (find rawdata callopentagname position + 13))) := by
  have hlength : callopentagname.length = 13 := by decide
  have hcallbound := find_bound (by decide) hcall
  set call := find rawdata callopentagname position with hcalldef
  have hbegin : plus call callopentagname.length = call + 13 := by
    rw [plus, hlength]
    unfold npos at hshort
    omega
  have hbeginpos : (window rawdata position).beginpos = call + 13 := hbegin
  have hclose := @getD_indexOf rawdata callclosetagname (call + 13) hshort (by decide) (by omega)
  have hnext := @getD_indexOf rawdata callopentagname (call + 13) hshort (by decide) (by omega)
  have hnextLe := @le_find rawdata callopentagname (call + 13) (by omega)
  have hcloseLe := @le_find rawdata callclosetagname (call + 13) (by omega)
  have hnextBound := @find_bound rawdata callopentagname (call + 13) (by decide)
  have hcloseBound := @find_bound rawdata callclosetagname (call + 13) (by decide)
  set next := find rawdata callopentagname (call + 13) with hnextdef
  set close := find rawdata callclosetagname (call + 13) with hclosedef
  have hdatalength : (window rawdata position).datalength =
      if next = npos ∧ close = npos then npos
      else if next ≠ npos ∧ next < close then next - (call + 13) else close - (call + 13) := by
    simp only [window, ← hcalldef, hbegin, ← hnextdef, ← hclosedef]
  rw [hbeginpos, substr, if_pos (by omega), recordOf, hclose, hnext, hdatalength,
    Option.some.injEq, List.take_eq_take_iff, List.length_drop]
  -- the record ends at the next opening tag or at the closing one, whichever comes first
  by_cases hnextFound : next = npos
  · by_cases hcloseFound : close = npos
    · rw [if_pos hnextFound, if_pos hcloseFound, if_pos ⟨hnextFound, hcloseFound⟩]
      omega
    · have hbound := hcloseBound hcloseFound
      rw [if_pos hnextFound, if_neg hcloseFound, if_neg fun h => hcloseFound h.2,
        if_neg fun h => h.1 hnextFound]
      omega
  · have hbound := hnextBound hnextFound
    rw [if_neg hnextFound, if_neg fun h => hnextFound h.1]
    by_cases hcloseFound : close = npos
    · rw [if_pos hcloseFound, if_pos ⟨hnextFound, by omega⟩]
      omega
    · have hbound' := hcloseBound hcloseFound
      rw [if_neg hcloseFound]
      by_cases hlt : next < close
      · rw [if_pos ⟨hnextFound, hlt⟩]
        omega
      · rw [if_neg fun h => hlt h.2]
        omega

/-- Behind an opening tag the loop cuts the records of the text. -/
theorem cut_eq (hshort : rawdata.length < npos) :
    ∀ (fuel position : Nat), find rawdata callopentagname position ≠ npos →
      position ≤ rawdata.length →
      rawdata.length < fuel + find rawdata callopentagname position →
      cut rawdata fuel position = .ok ((tagged (rawdata.drop position)).map recordOf)
  | 0, position, hcall, _, hfuel => by
      have hbound := find_bound (by decide) hcall
      omega
  | fuel + 1, position, hcall, hposition, hfuel => by
      have hbound := find_bound (by decide) hcall
      have hlength : callopentagname.length = 13 := by decide
      have hbegin : find rawdata callopentagname position + 13 ≤ rawdata.length := by omega
      have hnextdef : (window rawdata position).nextcallrecordposition =
          find rawdata callopentagname (find rawdata callopentagname position + 13) := by
        show find rawdata callopentagname
          (plus (find rawdata callopentagname position) callopentagname.length) = _
        rw [plus, hlength, Nat.mod_eq_of_lt (by unfold npos at hshort; omega)]
      rw [cut, tagged_drop hshort hposition hcall]
      simp only [substr_window hshort hcall]
      by_cases hnext : (window rawdata position).nextcallrecordposition = npos
      · rw [if_neg (not_not_intro hnext),
          tagged_drop_of_npos hshort hbegin (hnextdef.symm.trans hnext)]
        rfl
      · obtain ⟨hfound, hlt⟩ := find_next hshort hcall hnext
        have hfoundNe : find rawdata callopentagname
            (plus (window rawdata position).beginpos (window rawdata position).datalength) ≠
              npos := by
          rw [hfound]
          exact hnext
        have hend : plus (window rawdata position).beginpos
            (window rawdata position).datalength ≤ rawdata.length := by
          by_contra hbehind
          rw [find, if_neg hbehind] at hfoundNe
          exact hfoundNe rfl
        have hrest := cut_eq hshort fuel _ hfoundNe hend (by rw [hfound]; omega)
        have hnextNe : find rawdata callopentagname
            (find rawdata callopentagname position + 13) ≠ npos := hnextdef ▸ hnext
        -- the search from the end of the window finds the tag that was found before
        have hsame : tagged (rawdata.drop (plus (window rawdata position).beginpos
              (window rawdata position).datalength)) =
            tagged (rawdata.drop (find rawdata callopentagname position + 13)) := by
          rw [tagged_drop hshort hend hfoundNe, tagged_drop hshort hbegin hnextNe, hfound,
            hnextdef]
        rw [if_pos hnext, hrest, hsame]
        rfl

/-! ### What `Parse` does with a file -/

/-- The text has an opening tag. -/
theorem find_ne_npos_iff (hshort : rawdata.length < npos) :
    find rawdata callopentagname 0 ≠ npos ↔ tagged rawdata ≠ [] := by
  constructor
  · intro hfind
    have htagged := tagged_drop hshort (Nat.zero_le _) hfind
    rw [List.drop_zero] at htagged
    rw [htagged]
    exact List.cons_ne_nil _ _
  · intro htagged hfind
    have hnone := tagged_drop_of_npos hshort (Nat.zero_le _) hfind
    rw [List.drop_zero] at hnone
    exact htagged hnone

theorem records_eq {rawData : List Char} (hshort : rawData.length < npos)
    (htagged : taggedRecords rawData ≠ []) : records rawData = .ok (taggedRecords rawData) := by
  have hle : (withoutBreaks rawData).length ≤ rawData.length :=
    (List.length_filter_le _ _).trans (List.length_filter_le _ _)
  have hshort' : (withoutBreaks rawData).length < npos := by omega
  have hfind := (find_ne_npos_iff hshort').mpr fun hnil => htagged (by rw [taggedRecords, hnil]; rfl)
  have hcut := cut_eq hshort' ((withoutBreaks rawData).length + 2) 0 hfind (Nat.zero_le _) (by omega)
  rw [List.drop_zero] at hcut
  exact hcut

/-- The loop cuts at least one record. -/
theorem ne_nil_of_records {rawData : List Char} {rs : List (List Char)}
    (h : records rawData = .ok rs) : rs ≠ [] := by
  rintro rfl
  rw [records, cut] at h
  set w := window (withoutBreaks rawData) 0
  cases hsubstr : substr (withoutBreaks rawData) w.beginpos w.datalength with
  | none => simp only [hsubstr, reduceCtorEq] at h
  | some rawcalldata =>
      simp only [hsubstr] at h
      by_cases hnext : w.nextcallrecordposition ≠ npos
      · rw [if_pos hnext] at h
        cases hrest : cut (withoutBreaks rawData) ((withoutBreaks rawData).length + 1)
            (plus w.beginpos w.datalength) with
        | error e => simp [hrest, Except.map] at h
        | ok rest => simp [hrest, Except.map] at h
      · rw [if_neg hnext] at h
        exact absurd h (by simp)

section Result

variable (md5 : List Char → List UInt8)

/-- `Parse` returns the calls of the records behind the opening tags, and counts those that
it rejects. -/
structure Splits (rawData : List Char) : Prop where
  cut : records rawData = .ok (taggedRecords rawData)
  returns : ∃ parsed, parse md5 rawData = .ok parsed ∧
    parsed.calls = accepted md5 (taggedRecords rawData) ∧
    parsed.calls.length + parsed.errorcallscount = (tagged (withoutBreaks rawData)).length

theorem length_accepted_add_rejected (rs : List (List Char)) :
    (accepted md5 rs).length + (rejected md5 rs).length = rs.length := by
  induction rs with
  | nil => rfl
  | cons r rs ih =>
      cases hcall : parseCall md5 r with
      | none =>
          simp only [accepted, rejected, List.filterMap_cons, List.filter_cons, hcall,
            Option.isNone_none, if_true, List.length_cons] at ih ⊢
          omega
      | some call =>
          simp only [accepted, rejected, List.filterMap_cons, List.filter_cons, hcall,
            Option.isNone_some, Bool.false_eq_true, if_false, List.length_cons] at ih ⊢
          omega

/-- The loop of `Parse` ends, and **`Parse` loses no record** exactly if the text has an opening
tag and fewer records than the counter can hold are rejected. -/
theorem splits_iff (rawData : List Char) (hshort : rawData.length < npos) :
    parse md5 rawData ≠ .error .fuel ∧
      (Splits md5 rawData ↔
        taggedRecords rawData ≠ [] ∧
          (rejected md5 (taggedRecords rawData)).length < 2 ^ 32) := by
  refine ⟨parse_ne_fuel md5 hshort, ?_⟩
  have hlength : (tagged (withoutBreaks rawData)).length = (taggedRecords rawData).length := by
    rw [taggedRecords, List.length_map]
  have htotal := length_accepted_add_rejected md5 (taggedRecords rawData)
  constructor
  · rintro ⟨hcut, parsed, hparse, hcalls, hsum⟩
    obtain ⟨errorids, heq⟩ := parse_eq md5 hcut
    rw [heq, Except.ok.injEq] at hparse
    refine ⟨ne_nil_of_records hcut, ?_⟩
    rw [← hparse] at hsum
    dsimp only at hsum
    omega
  · rintro ⟨htagged, hfew⟩
    have hcut := records_eq hshort htagged
    obtain ⟨errorids, heq⟩ := parse_eq md5 hcut
    refine ⟨hcut, _, heq, rfl, ?_⟩
    dsimp only
    omega

/-- A file with one record that is closed and one that is not. -/
def twoRecords : List Char := "<OT_Call_CDR>a</OT_Call_CDR>\n<OT_Call_CDR>b".toList

theorem splits_twoRecords :
    taggedRecords twoRecords = [['a'], ['b']] ∧ Splits (fun _ => []) twoRecords := by
  have htagged : taggedRecords twoRecords = [['a'], ['b']] := by decide +kernel
  refine ⟨htagged, (splits_iff (fun _ => []) twoRecords (by decide +kernel)).2.mpr ⟨?_, ?_⟩⟩
  · rw [htagged]
    exact List.cons_ne_nil _ _
  · rw [htagged]
    exact (List.length_filter_le _ _).trans_lt (by decide)

/-- An empty file has no record, and `Parse` throws. -/
theorem not_splits_emptyFile :
    parse (fun _ => []) [] = .error .outOfRange ∧ ¬ Splits (fun _ => []) [] := by
  have hrecords : records [] = .error .outOfRange := by decide +kernel
  refine ⟨parse_error _ hrecords, fun h => ?_⟩
  have hcut := h.cut
  rw [hrecords] at hcut
  exact absurd hcut (by simp)

end Result

end CdrParser
end VoipBill
