import Mathlib.Order.Nat
import VoipBill.Lib.Brackets

/-!
# Removing HTML tags

`removeHtmlTags` blanks tags in place with a stack of the positions where tags are open, and
closes the gaps afterwards.

* `scanned_step`: the loop does what `Lib.Brackets` does with the characters as marks;
* `removeHtmlTags_eq`: so the result is what is left outside of complete tags;
* `Rejoins`: a `<` that opens no tag stands before complete tags and, behind them, before
  characters that make it one;
* `removesTags_iff`: no tag is left exactly when this does not happen.
-/

namespace VoipBill

open Lib.Brackets

/-! ## The source -/

/-- What a blanked character is set to. -/
def nul : Char := Char.ofNat 0

/-- What may follow the `<` of a tag. -/
def isTagStart (c : Char) : Bool :=
  (decide ('a' ≤ c) && decide (c ≤ 'z')) || (decide ('A' ≤ c) && decide (c ≤ 'Z')) || c == '!' ||
    c == '/'

/-- The loop's text, stack and flag. -/
structure TagScan where
  str : List Char
  openIndex : List Nat := []
  modified : Bool := false

/-- The test for the begin of a tag at a position. -/
def opensTag (str : List Char) (i : Nat) : Bool :=
  str[i]? == some '<' && str[i + 1]?.any isTagStart

def blank (top i : Nat) (str : List Char) : List Char :=
  str.mapIdx fun j c => if top ≤ j ∧ j ≤ i then nul else c

def scanStep (scan : TagScan) (i : Nat) : TagScan :=
  if opensTag scan.str i then
    { scan with openIndex := i :: scan.openIndex }
  else if scan.str[i]? = some '>' then
    match scan.openIndex with
    | [] => scan
    | top :: openIndex =>
        { str := blank top i scan.str, openIndex := openIndex, modified := true }
  else
    scan

/-- What the function returns and the string that it leaves. -/
def removeHtmlTags (str : List Char) : Bool × List Char :=
  if str = [] then (false, str)
  else
    let scan := (List.range str.length).foldl scanStep { str := str }
    if scan.modified then (true, scan.str.filter (· ≠ nul)) else (false, scan.str)

/-! ## Characters as marks -/

def mark (c : Char) (next : Option Char) : Mark Char :=
  if c = '<' ∧ next.any isTagStart = true then .opening c
  else if c = '>' then .closing c
  else .plain c

def marks : List Char → List (Mark Char)
  | [] => []
  | c :: text => mark c text.head? :: marks text

@[simp] theorem value_mark (c : Char) (next : Option Char) : (mark c next).value = c := by
  unfold mark
  split
  · rfl
  · split <;> rfl

@[simp] theorem length_marks (text : List Char) : (marks text).length = text.length := by
  induction text with
  | nil => rfl
  | cons c text ih => rw [marks, List.length_cons, List.length_cons, ih]

theorem map_value_marks (text : List Char) : (marks text).map Mark.value = text := by
  induction text with
  | nil => rfl
  | cons c text ih => rw [marks, List.map_cons, value_mark, ih]

theorem getElem?_marks (text : List Char) (i : Nat) :
    (marks text)[i]? = text[i]?.map fun c => mark c text[i + 1]? := by
  induction text generalizing i with
  | nil => simp [marks]
  | cons c text ih =>
      cases i with
      | zero => simp [marks, List.head?_eq_getElem?]
      | succ i => simpa [marks] using ih i

theorem mark_eq_opening {c a : Char} {next : Option Char} (h : mark c next = .opening a) :
    c = '<' ∧ next.any isTagStart = true := by
  unfold mark at h
  split at h
  case isTrue hopen => exact hopen
  case isFalse =>
    split at h
    · exact absurd h (by simp)
    · exact absurd h (by simp)

theorem mark_eq_closing {c b : Char} {next : Option Char} (h : mark c next = .closing b) :
    c = '>' := by
  unfold mark at h
  split at h
  · exact absurd h (by simp)
  · split at h
    case isTrue hclose => exact hclose
    case isFalse => exact absurd h (by simp)

/-- The start of a tag is no bracket. -/
theorem mark_of_isTagStart {d : Char} (h : isTagStart d = true) (next : Option Char) :
    mark d next = .plain d := by
  have hopen : d ≠ '<' := by
    rintro rfl
    exact absurd h (by decide)
  have hclose : d ≠ '>' := by
    rintro rfl
    exact absurd h (by decide)
  rw [mark, if_neg fun hd => hopen hd.1, if_neg hclose]

theorem mark_close (next : Option Char) : mark '>' next = .closing '>' := by
  rw [mark, if_neg fun h => absurd h.1 (by decide), if_pos rfl]

/-- Two texts are marked one by one, unless a tag begins where they meet. -/
theorem marks_append {a b : List Char}
    (h : ∀ c ∈ a.getLast?, ∀ d ∈ b.head?, c = '<' → isTagStart d = false) :
    marks (a ++ b) = marks a ++ marks b := by
  induction a with
  | nil => rfl
  | cons c a ih =>
      cases a with
      | nil =>
          have hmark : mark c b.head? = mark c none := by
            by_cases hc : c = '<'
            · have hnext : b.head?.any isTagStart = false := by
                cases hb : b.head? with
                | none => rfl
                | some d => exact h c (by simp) d (by simp [hb]) hc
              simp [mark, hnext]
            · simp [mark, hc]
          rw [List.singleton_append, marks, hmark]
          rfl
      | cons c' a =>
          have hrest := ih fun e he d hd => h e (by simpa using he) d hd
          rw [List.cons_append, marks, hrest]
          rfl

/-! ## What the loop keeps -/

/-- The characters from `a` up to `b` that are not blanked. -/
def visible (str : List Char) (a b : Nat) : List Char :=
  ((str.drop a).take (b - a)).filter (· ≠ nul)

theorem visible_self (str : List Char) (a : Nat) : visible str a a = [] := by
  simp [visible]

theorem visible_append (str : List Char) {a b c : Nat} (hab : a ≤ b) (hbc : b ≤ c) :
    visible str a b ++ visible str b c = visible str a c := by
  have hsplit : c - a = (b - a) + (c - b) := by omega
  have hdrop : str.drop b = (str.drop a).drop (b - a) := by
    rw [List.drop_drop]
    congr 1
    omega
  rw [visible, visible, visible, ← List.filter_append, hsplit, List.take_add, hdrop]

theorem visible_succ {str : List Char} {a b : Nat} {c : Char} (hab : a ≤ b)
    (hb : str[b]? = some c) (hc : c ≠ nul) : visible str a (b + 1) = visible str a b ++ [c] := by
  rw [← visible_append str hab (Nat.le_succ b)]
  congr 1
  have hone : b + 1 - b = 1 := by omega
  have hhead : (str.drop b).take 1 = [c] := by
    obtain ⟨hlt, rfl⟩ := List.getElem?_eq_some_iff.mp hb
    rw [List.drop_eq_getElem_cons hlt]
    rfl
  rw [visible, hone, hhead]
  simp [hc]

theorem getElem?_blank (str : List Char) (top i j : Nat) :
    (blank top i str)[j]? = if top ≤ j ∧ j ≤ i then str[j]?.map fun _ => nul else str[j]? := by
  rw [blank, List.getElem?_mapIdx]
  split
  · simp_all
  · simp_all

/-- Blanking does not change what stands before. -/
theorem visible_blank_of_le (str : List Char) {top i a b : Nat} (h : b ≤ top) :
    visible (blank top i str) a b = visible str a b := by
  have hsame : ((blank top i str).drop a).take (b - a) = (str.drop a).take (b - a) := by
    apply List.ext_getElem?
    intro k
    rw [List.getElem?_take, List.getElem?_take, List.getElem?_drop, List.getElem?_drop,
      getElem?_blank]
    split
    · rw [if_neg (by omega)]
    · rfl
  rw [visible, visible, hsame]

/-- A blanked part has nothing left. -/
theorem visible_blank (str : List Char) (top i : Nat) :
    visible (blank top i str) top (i + 1) = [] := by
  rw [visible, List.filter_eq_nil_iff]
  intro c hmem
  obtain ⟨k, hk⟩ := List.getElem?_of_mem hmem
  rw [List.getElem?_take] at hk
  split at hk
  case isTrue hlt =>
    rw [List.getElem?_drop, getElem?_blank, if_pos (by omega), Option.map_eq_some_iff] at hk
    obtain ⟨_, _, rfl⟩ := hk
    simp
  case isFalse => exact absurd hk (by simp)

/-- The text up to a position, split at the open tags. -/
def view (str : List Char) : Nat → List Nat → State Char
  | i, [] => ⟨visible str 0 i, []⟩
  | i, top :: openIndex =>
      ⟨(view str top openIndex).base, visible str top i :: (view str top openIndex).opens⟩

theorem opens_view (str : List Char) (i : Nat) (openIndex : List Nat) :
    (view str i openIndex).opens = [] ↔ openIndex = [] := by
  cases openIndex <;> simp [view]

theorem text_view (str : List Char) {i : Nat} {openIndex : List Nat}
    (h : (i :: openIndex).Pairwise (· > ·)) : (view str i openIndex).text = visible str 0 i := by
  induction openIndex generalizing i with
  | nil => simp [view, State.text]
  | cons top openIndex ih =>
      rw [List.pairwise_cons] at h
      have htop : top < i := h.1 top (by simp)
      rw [← visible_append str (Nat.zero_le top) htop.le, ← ih h.2]
      simp [view, State.text]

theorem view_blank (str : List Char) {top i j : Nat} {openIndex : List Nat} (hle : j ≤ top)
    (h : (j :: openIndex).Pairwise (· > ·)) :
    view (blank top i str) j openIndex = view str j openIndex := by
  induction openIndex generalizing j with
  | nil => rw [view, view, visible_blank_of_le str hle]
  | cons k openIndex ih =>
      rw [List.pairwise_cons] at h
      have hk : k < j := h.1 k (by simp)
      rw [view, view, visible_blank_of_le str hle, ih (by omega) h.2]

/-- Closing a tag leaves what was there before it. -/
theorem view_close (str : List Char) {top i : Nat} {openIndex : List Nat} (hle : top ≤ i)
    (h : (top :: openIndex).Pairwise (· > ·)) :
    view (blank top i str) (i + 1) openIndex = view str top openIndex := by
  have hvisible : ∀ k, k ≤ top → visible (blank top i str) k (i + 1) = visible str k top := by
    intro k hk
    rw [← visible_append _ hk (hle.trans (Nat.le_succ i)), visible_blank,
      visible_blank_of_le str le_rfl, List.append_nil]
  cases openIndex with
  | nil => rw [view, view, hvisible 0 (Nat.zero_le top)]
  | cons k openIndex =>
      rw [List.pairwise_cons] at h
      have hk : k < top := h.1 k (by simp)
      rw [view, view, hvisible k hk.le, view_blank str hk.le h.2]

/-- A character that closes no tag is put behind. -/
theorem view_succ {str : List Char} {i : Nat} {c : Char} {openIndex : List Nat}
    (h : (i :: openIndex).Pairwise (· > ·)) (hi : str[i]? = some c) (hc : c ≠ nul) :
    view str (i + 1) openIndex = (view str i openIndex).step (.plain c) := by
  cases openIndex with
  | nil => rw [view, visible_succ (Nat.zero_le i) hi hc, view, State.step]
  | cons top openIndex =>
      rw [List.pairwise_cons] at h
      have htop : top < i := h.1 top (by simp)
      rw [view, visible_succ htop.le hi hc, view, State.step]

/-- The state of the loop in front of position `i`: what is not blanked and the open tags are
those of the marks so far, and the text from `i` on is untouched. -/
structure Scanned (s : List Char) (i : Nat) (scan : TagScan) : Prop where
  drop : scan.str.drop i = s.drop i
  sorted : (i :: scan.openIndex).Pairwise (· > ·)
  view : view scan.str i scan.openIndex = run ((marks s).take i)
  modified : scan.modified = true ↔ HasGroup ((marks s).take i)
  unmodified : scan.modified = false → scan.str = s

variable {s : List Char} {i : Nat} {scan : TagScan}

theorem scanned_init (s : List Char) : Scanned s 0 { str := s } where
  drop := rfl
  sorted := List.pairwise_singleton _ _
  view := by simp [VoipBill.view, visible_self, run]
  modified := by
    refine iff_of_false Bool.false_ne_true ?_
    rintro ⟨u, v, w, a, b, h⟩
    simp at h
  unmodified _ := rfl

theorem Scanned.getElem? (h : Scanned s i scan) {j : Nat} (hj : i ≤ j) : scan.str[j]? = s[j]? := by
  have hdrop := congrArg (fun l => l[j - i]?) h.drop
  simp only [List.getElem?_drop] at hdrop
  rwa [show i + (j - i) = j by omega] at hdrop

theorem take_marks_succ {c : Char} (hi : s[i]? = some c) :
    (marks s).take (i + 1) = (marks s).take i ++ [mark c s[i + 1]?] := by
  rw [List.take_add_one, getElem?_marks, hi]
  rfl

/-- The positions stay in order when the loop goes on. -/
theorem Scanned.sorted_succ (h : Scanned s i scan) :
    ((i + 1) :: scan.openIndex).Pairwise (· > ·) := by
  have hsorted := List.pairwise_cons.mp h.sorted
  refine List.pairwise_cons.mpr ⟨fun k hk => ?_, hsorted.2⟩
  have hlt := hsorted.1 k hk
  omega

theorem Scanned.drop_succ (h : Scanned s i scan) : scan.str.drop (i + 1) = s.drop (i + 1) := by
  rw [← List.drop_drop, ← List.drop_drop, h.drop]

/-- **One turn of the loop** reads one mark. -/
theorem scanned_step (h : Scanned s i scan) (hnul : nul ∉ s) (hi : i < s.length) :
    Scanned s (i + 1) (scanStep scan i) := by
  obtain ⟨c, hc⟩ : ∃ c, s[i]? = some c := ⟨_, List.getElem?_eq_getElem hi⟩
  have hstr : scan.str[i]? = some c := (h.getElem? le_rfl).trans hc
  have hnext : scan.str[i + 1]? = s[i + 1]? := h.getElem? (Nat.le_succ i)
  have hne : c ≠ nul := by
    rintro rfl
    exact hnul (List.mem_of_getElem? hc)
  have htake := take_marks_succ hc
  have hsucc := view_succ h.sorted hstr hne
  have hopens : opensTag scan.str i = true ↔ c = '<' ∧ s[i + 1]?.any isTagStart = true := by
    simp [opensTag, hstr, hnext]
  unfold scanStep
  by_cases hopen : c = '<' ∧ s[i + 1]?.any isTagStart = true
  · -- a tag is opened
    have hmark : mark c s[i + 1]? = .opening c := if_pos hopen
    rw [if_pos (hopens.mpr hopen)]
    rw [hmark] at htake
    refine ⟨h.drop_succ, ?_, ?_, ?_, h.unmodified⟩
    · exact List.pairwise_cons.mpr ⟨fun k hk => by
        rcases List.mem_cons.mp hk with rfl | hk
        · exact Nat.lt_succ_self k
        · have hlt := (List.pairwise_cons.mp h.sorted).1 k hk
          omega, h.sorted⟩
    · rw [htake, run_concat, ← h.view]
      have hone := visible_succ (le_refl i) hstr hne
      rw [visible_self, List.nil_append] at hone
      simp only [VoipBill.view, State.step, hone]
    · rw [htake, hasGroup_concat]
      simpa using h.modified
  · rw [if_neg fun hopen' => hopen (hopens.mp hopen'), hstr]
    by_cases hclose : c = '>'
    · have hmark : mark c s[i + 1]? = .closing c := by rw [mark, if_neg hopen, if_pos hclose]
      rw [if_pos (congrArg some hclose)]
      rw [hmark] at htake
      have hgroup := hasGroup_concat_closing ((marks s).take i) c
      rw [← htake, ← h.view, Ne, opens_view] at hgroup
      cases hindex : scan.openIndex with
      | nil =>
          -- no tag is open: the character stays
          refine ⟨h.drop_succ, h.sorted_succ, ?_, ?_, h.unmodified⟩
          · rw [htake, run_concat, ← h.view, hsucc, hindex]
            rfl
          · rw [hgroup, hindex, h.modified]
            simp
      | cons top openIndex =>
          have hsorted := h.sorted
          rw [hindex, List.pairwise_cons] at hsorted
          have htop : top < i := hsorted.1 top (by simp)
          refine ⟨?_, ?_, ?_, ?_, ?_⟩
          · apply List.ext_getElem?
            intro k
            rw [← h.drop_succ, List.getElem?_drop, List.getElem?_drop, getElem?_blank,
              if_neg (by omega)]
          · refine List.pairwise_cons.mpr ⟨fun k hk => ?_, (List.pairwise_cons.mp hsorted.2).2⟩
            have hlt := hsorted.1 k (List.mem_cons_of_mem _ hk)
            omega
          · rw [htake, run_concat, ← h.view, hindex, view_close _ htop.le hsorted.2]
            rfl
          · rw [hgroup, hindex]
            simp
          · exact fun hfalse => absurd hfalse (by simp)
    · have hmark : mark c s[i + 1]? = .plain c := by rw [mark, if_neg hopen, if_neg hclose]
      rw [if_neg fun heq => hclose (Option.some.inj heq)]
      rw [hmark] at htake
      refine ⟨h.drop_succ, h.sorted_succ, ?_, ?_, h.unmodified⟩
      · rw [htake, run_concat, ← h.view, hsucc]
      · rw [htake, hasGroup_concat, h.modified]
        simp

theorem scanned_range (hnul : nul ∉ s) (hi : i ≤ s.length) :
    Scanned s i ((List.range i).foldl scanStep { str := s }) := by
  induction i with
  | zero => exact scanned_init s
  | succ i ih =>
      rw [List.range_succ, List.foldl_append]
      exact scanned_step (ih (by omega)) hnul (by omega)

/-- **The function** returns whether there is a tag, and leaves what is outside of tags. -/
theorem removeHtmlTags_eq (hnul : nul ∉ s) :
    ((removeHtmlTags s).1 = true ↔ HasGroup (marks s)) ∧
      (removeHtmlTags s).2 = (run (marks s)).text := by
  by_cases hempty : s = []
  · subst hempty
    refine ⟨iff_of_false (by simp [removeHtmlTags]) ?_, rfl⟩
    rintro ⟨u, v, w, a, b, h⟩
    simp [marks] at h
  · have hscan := scanned_range hnul (le_refl s.length)
    have hall : (marks s).take s.length = marks s :=
      List.take_of_length_le (length_marks s).le
    have hview := hscan.view
    have hmodified := hscan.modified
    rw [hall] at hview hmodified
    have htext : (run (marks s)).text = visible ((List.range s.length).foldl scanStep
        { str := s }).str 0 s.length := by
      rw [← hview, text_view _ hscan.sorted]
    unfold removeHtmlTags
    rw [if_neg hempty]
    dsimp only
    split
    case isTrue htrue =>
      refine ⟨iff_of_true rfl (hmodified.mp htrue), ?_⟩
      have hlength : ((List.range s.length).foldl scanStep { str := s }).str.length ≤ s.length := by
        have hdrop := congrArg List.length hscan.drop
        rw [List.length_drop, List.length_drop] at hdrop
        omega
      rw [htext, visible, List.drop_zero, Nat.sub_zero, List.take_of_length_le hlength]
    case isFalse hfalse =>
      refine ⟨iff_of_false Bool.false_ne_true fun h => hfalse (hmodified.mpr h), ?_⟩
      have hsame := hscan.unmodified (by simpa using hfalse)
      rw [htext, hsame, visible, List.drop_zero, Nat.sub_zero, List.take_of_length_le le_rfl]
      symm
      exact List.filter_eq_self.mpr fun c hmem => by
        have hne : c ≠ nul := fun heq => hnul (heq ▸ hmem)
        simpa using hne

/-! ## Tags in a text -/

/-- A `<` directly in front of a letter, `!` or `/` has a `>` somewhere behind it. -/
def HasTag (text : List Char) : Prop :=
  ∃ front d mid back, text = front ++ '<' :: d :: (mid ++ '>' :: back) ∧ isTagStart d = true

/-- Outside of all tags a `<` stands in front of one or more complete tags, which are followed
by a letter, `!` or `/` and then by a `>` that closes no tag. -/
def Rejoins (s : List Char) : Prop :=
  ∃ front tags d mid back, s = front ++ '<' :: (tags ++ d :: (mid ++ '>' :: back)) ∧
    unclosed (marks front) = 0 ∧ tags ≠ [] ∧ OnlyGroups (marks tags) ∧ isTagStart d = true ∧
    unclosed (marks (d :: mid)) = 0

/-- The marks of a text are those of its parts. -/
theorem marks_eq_append {text : List Char} {u v : List (Mark Char)} (h : marks text = u ++ v) :
    ∃ a b, text = a ++ b ∧ a.length = u.length ∧ marks b = v := by
  induction u generalizing text with
  | nil => exact ⟨[], text, rfl, rfl, h⟩
  | cons x u ih =>
      cases text with
      | nil => simp [marks] at h
      | cons c text =>
          rw [marks, List.cons_append, List.cons.injEq] at h
          obtain ⟨a, b, rfl, hlength, hb⟩ := ih h.2
          exact ⟨c :: a, b, rfl, by simp [hlength], hb⟩

theorem marks_eq_cons {text : List Char} {x : Mark Char} {v : List (Mark Char)}
    (h : marks text = x :: v) :
    ∃ c rest, text = c :: rest ∧ x = mark c rest.head? ∧ marks rest = v := by
  cases text with
  | nil => simp [marks] at h
  | cons c rest =>
      rw [marks, List.cons.injEq] at h
      exact ⟨c, rest, rfl, h.1.symm, h.2⟩

/-- Marks that leave no tag open are those of the text they come from. -/
theorem marks_left {a b : List Char} {u v : List (Mark Char)} (h : marks (a ++ b) = u ++ v)
    (hlength : a.length = u.length) (hopens : (run u).opens = []) : marks a = u := by
  have hmeet : ∀ c ∈ a.getLast?, ∀ d ∈ b.head?, c = '<' → isTagStart d = false := by
    rintro c hc d hd rfl
    by_contra hstart
    rw [Bool.not_eq_false] at hstart
    -- the last mark of `u` would open a tag
    obtain ⟨init, rfl⟩ := List.getLast?_eq_some_iff.mp hc
    obtain ⟨u', x, rfl⟩ : ∃ u' x, u = u' ++ [x] := by
      rcases List.eq_nil_or_concat u with rfl | ⟨u', x, rfl⟩
      · simp at hlength
      · exact ⟨u', x, List.concat_eq_append⟩
    have hx : (marks (init ++ ['<'] ++ b))[init.length]? = some x := by
      have hsize : u'.length = init.length := by simpa using hlength.symm
      rw [h, ← hsize]
      simp
    rw [getElem?_marks] at hx
    have hhead : (init ++ ['<'] ++ b)[init.length + 1]? = some d := by
      rw [← (show b.head? = some d from hd), List.head?_eq_getElem?, List.getElem?_append_right (by simp)]
      simp
    have hlast : (init ++ ['<'] ++ b)[init.length]? = some '<' := by simp
    rw [hhead, hlast, Option.map_some, Option.some.injEq] at hx
    have hopening : x = .opening '<' := by
      rw [← hx]
      exact if_pos ⟨rfl, hstart⟩
    rw [hopening, run_concat] at hopens
    exact absurd hopens (by simp [State.step])
  rw [marks_append hmeet] at h
  exact (List.append_inj h (by rw [length_marks, hlength])).1

theorem hasGroup_marks_iff (text : List Char) : HasGroup (marks text) ↔ HasTag text := by
  constructor
  · rintro ⟨u, v, w, a, b, h⟩
    obtain ⟨front, rest, rfl, -, hrest⟩ := marks_eq_append h
    obtain ⟨c, rest, rfl, hopening, hinner⟩ := marks_eq_cons hrest
    obtain ⟨rfl, hnext⟩ := mark_eq_opening hopening.symm
    cases rest with
    | nil => simp [marks] at hinner
    | cons d rest =>
        have hstart : isTagStart d = true := by simpa using hnext
        rw [marks, mark_of_isTagStart hstart] at hinner
        cases v with
        | nil => simp at hinner
        | cons x v =>
            rw [List.cons_append, List.cons.injEq] at hinner
            obtain ⟨mid, rest', rfl, -, hback⟩ := marks_eq_append hinner.2
            obtain ⟨e, back, rfl, hclosing, -⟩ := marks_eq_cons hback
            obtain rfl := mark_eq_closing hclosing.symm
            exact ⟨front, d, mid, back, rfl, hstart⟩
  · rintro ⟨front, d, mid, back, rfl, hstart⟩
    have hfront : marks (front ++ '<' :: d :: (mid ++ '>' :: back)) =
        marks front ++ marks ('<' :: d :: (mid ++ '>' :: back)) :=
      marks_append fun c _ e he _ => by
        obtain rfl : '<' = e := by simpa using he
        rfl
    have hmid : marks (mid ++ '>' :: back) = marks mid ++ marks ('>' :: back) :=
      marks_append fun c _ e he _ => by
        obtain rfl : '>' = e := by simpa using he
        rfl
    have hopening : mark '<' (some d) = .opening '<' := if_pos ⟨rfl, by simpa using hstart⟩
    refine ⟨marks front, .plain d :: marks mid, marks back, '<', '>', ?_⟩
    rw [hfront, marks, marks, hmid, marks, mark_close, mark_of_isTagStart hstart]
    simp only [List.head?_cons, hopening, List.cons_append]

/-- A `>` closes a tag that begins in front of it. -/
theorem hasTag_append_iff {text rest : List Char} (h : '>' ∉ rest) :
    HasTag (text ++ rest) ↔ HasTag text := by
  constructor
  · rintro ⟨front, d, mid, back, heq, hstart⟩
    have hsplit : text ++ rest = (front ++ '<' :: d :: mid) ++ '>' :: back := by
      rw [heq]
      simp
    rcases List.append_eq_append_iff.mp hsplit with ⟨middle, hleft, hright⟩ | ⟨middle, hleft, hright⟩
    · exact absurd (by rw [hright]; simp) h
    · cases middle with
      | nil => exact absurd (by rw [← List.nil_append rest, ← hright]; simp) h
      | cons c middle =>
          rw [List.cons_append, List.cons.injEq] at hright
          refine ⟨front, d, mid, middle, ?_, hstart⟩
          rw [hleft, ← hright.1]
          simp
  · rintro ⟨front, d, mid, back, rfl, hstart⟩
    exact ⟨front, d, mid, back ++ rest, by simp, hstart⟩

/-- What is left in open tags contains no `>`. -/
theorem hasTag_text_iff (s : List Char) :
    HasTag (run (marks s)).text ↔ HasTag (run (marks s)).base := by
  refine hasTag_append_iff fun hmem => ?_
  obtain ⟨group, hgroup, hin⟩ := List.mem_flatten.mp hmem
  refine of_mem_opens (P := fun c => c ≠ '>') ?_ group (List.mem_reverse.mp hgroup) '>' hin rfl
  intro x hx hclosing hvalue
  obtain ⟨i, hi⟩ := List.getElem?_of_mem hx
  rw [getElem?_marks, Option.map_eq_some_iff] at hi
  obtain ⟨c, -, rfl⟩ := hi
  rw [value_mark] at hvalue
  subst hvalue
  exact hclosing '>' (mark_close _)

theorem run_plain (d : Char) (v : List (Mark Char)) :
    run (.plain d :: v) = ⟨d :: (run v).base, (run v).opens⟩ :=
  run_append (show run [Mark.plain d] = ⟨[d], []⟩ from rfl) v

theorem opens_eq_nil_iff (m : List (Mark Char)) : (run m).opens = [] ↔ unclosed m = 0 := by
  rw [← length_opens, List.length_eq_zero_iff]

/-- If a tag is left, characters have come together over complete tags. -/
theorem rejoins_of_hasTag (h : HasTag (run (marks s)).base) : Rejoins s := by
  obtain ⟨x, d, y, z, hbase, hstart⟩ := h
  -- the three characters of the tag that is left cut the text
  obtain ⟨u, m, v, hmarks, hu, hvalue, hplain, hv⟩ := exists_of_base hbase
  have hbehind : (run v).base = [] ++ d :: (y ++ '>' :: z) := congrArg State.base hv
  obtain ⟨v₁, m₂, v₂, rfl, hv₁, hvalue₂, -, hv₂⟩ := exists_of_base hbehind
  have hbehind₂ : (run v₂).base = y ++ '>' :: z := congrArg State.base hv₂
  obtain ⟨v₃, m₃, v₄, rfl, hv₃, hvalue₃, -, -⟩ := exists_of_base hbehind₂
  obtain ⟨front, rest, rfl, hfront, hrest⟩ := marks_eq_append hmarks
  obtain ⟨c, rest₁, rfl, rfl, hrest₁⟩ := marks_eq_cons hrest
  obtain ⟨tags, rest₂, rfl, htags, hrest₂⟩ := marks_eq_append hrest₁
  obtain ⟨c₂, rest₃, rfl, rfl, hrest₃⟩ := marks_eq_cons hrest₂
  obtain ⟨mid, rest₄, rfl, hmid, hrest₄⟩ := marks_eq_append hrest₃
  obtain ⟨c₃, back, rfl, rfl, -⟩ := marks_eq_cons hrest₄
  rw [value_mark] at hvalue hvalue₂ hvalue₃
  subst hvalue hvalue₂ hvalue₃
  have hfrontMarks := marks_left hmarks hfront (by rw [hu])
  have htagsMarks := marks_left hrest₁ htags (by rw [hv₁])
  have hmidMarks := marks_left hrest₃ hmid (by rw [hv₃])
  refine ⟨front, tags, c₂, mid, back, rfl, ?_, ?_, ?_, hstart, ?_⟩
  · rw [hfrontMarks, ← opens_eq_nil_iff, hu]
  · -- without a complete tag between them the first two characters would open a tag
    rintro rfl
    exact hplain '<' (if_pos ⟨rfl, by simpa using hstart⟩)
  · rw [htagsMarks, onlyGroups_iff]
    exact hv₁
  · rw [marks, mark_of_isTagStart hstart, ← opens_eq_nil_iff, run_plain, hmidMarks, hv₃]

/-- A complete tag begins with `<` and ends with `>`. -/
theorem tags_ends {tags : List Char} (h : OnlyGroups (marks tags)) :
    (∀ c ∈ tags.head?, c = '<') ∧ ∀ c ∈ tags.getLast?, c = '>' := by
  constructor
  · intro c hc
    obtain ⟨rest, rfl⟩ : ∃ rest, tags = c :: rest := List.head?_eq_some_iff.mp hc
    obtain ⟨a, ha⟩ := OnlyGroups.head (show OnlyGroups (mark c rest.head? :: marks rest) from h)
    exact (mark_eq_opening ha).1
  · intro c hc
    obtain ⟨init, rfl⟩ := List.getLast?_eq_some_iff.mp hc
    have hsplit : marks (init ++ [c]) = (marks (init ++ [c])).take init.length ++ [mark c none] := by
      have hlast : (init ++ [c])[init.length]? = some c := by simp
      have htake := take_marks_succ hlast
      rw [List.take_of_length_le (by simp)] at htake
      simpa using htake
    rw [hsplit] at h
    obtain ⟨a, ha⟩ := h.last
    exact mark_eq_closing ha

/-- Characters that come together over complete tags make a tag. -/
theorem hasTag_of_rejoins (h : Rejoins s) : HasTag (run (marks s)).base := by
  obtain ⟨front, tags, d, mid, back, rfl, hfront, hne, htags, hstart, hmid⟩ := h
  obtain ⟨hhead, hlast⟩ := tags_ends htags
  have hmarksMid : marks (mid ++ '>' :: back) = marks mid ++ .closing '>' :: marks back := by
    rw [marks_append fun c _ e he _ => ?_, marks, mark_close]
    obtain rfl : '>' = e := by simpa using he
    rfl
  have hmarksTags : marks (tags ++ d :: (mid ++ '>' :: back)) =
      marks tags ++ .plain d :: (marks mid ++ .closing '>' :: marks back) := by
    rw [marks_append fun c hc e _ heq => ?_, marks, mark_of_isTagStart hstart, hmarksMid]
    exact absurd ((hlast c hc).symm.trans heq) (by decide)
  have hmarks : marks (front ++ '<' :: (tags ++ d :: (mid ++ '>' :: back))) =
      marks front ++ .plain '<' :: (marks tags ++
        .plain d :: (marks mid ++ .closing '>' :: marks back)) := by
    obtain ⟨c, tags', rfl⟩ := List.exists_cons_of_ne_nil hne
    obtain rfl : c = '<' := hhead c (by simp)
    rw [marks_append fun c _ e he _ => ?_, marks, hmarksTags]
    · rfl
    · obtain rfl : '<' = e := by simpa using he
      rfl
  rw [onlyGroups_iff] at htags
  rw [marks, mark_of_isTagStart hstart, ← opens_eq_nil_iff, run_plain] at hmid
  rw [← opens_eq_nil_iff] at hfront
  -- every part leaves no tag open, so the next one is read as if it were alone
  have hrunMid : run (marks mid) = ⟨(run (marks mid)).base, []⟩ := by
    ext1
    · rfl
    · exact hmid
  have hrunFront : run (marks front) = ⟨(run (marks front)).base, []⟩ := by
    ext1
    · rfl
    · exact hfront
  obtain ⟨rest, hrest⟩ : ∃ rest, (run (.closing '>' :: marks back)).base = '>' :: rest :=
    base_append [Mark.closing '>'] (marks back)
  refine ⟨(run (marks front)).base, d, (run (marks mid)).base, rest, ?_, hstart⟩
  rw [hmarks, run_append hrunFront, run_plain, run_append htags, run_plain, run_append hrunMid,
    hrest]
  rfl

/-! ## The function -/

/-- No tag is left, a second call changes nothing, and the function returns whether it changed
the string. -/
def RemovesTags (s : List Char) : Prop :=
  ¬ HasTag (removeHtmlTags s).2 ∧
    removeHtmlTags (removeHtmlTags s).2 = (false, (removeHtmlTags s).2) ∧
    ((removeHtmlTags s).1 = true ↔ (removeHtmlTags s).2 ≠ s)

/-- **Removing tags** leaves none, and is done in one call, exactly for the strings in which
nothing comes together over a tag. -/
theorem removesTags_iff (s : List Char) (hnul : nul ∉ s) : RemovesTags s ↔ ¬ Rejoins s := by
  obtain ⟨hreturned, htext⟩ := removeHtmlTags_eq hnul
  have hrejoins : HasTag (removeHtmlTags s).2 ↔ Rejoins s := by
    rw [htext, hasTag_text_iff]
    exact ⟨rejoins_of_hasTag, hasTag_of_rejoins⟩
  constructor
  · rintro ⟨hno, -⟩
    exact mt hrejoins.mpr hno
  · intro hnot
    have hno := mt hrejoins.mp hnot
    refine ⟨hno, ?_, ?_⟩
    · have hnul' : nul ∉ (removeHtmlTags s).2 := by
        rw [htext]
        intro hmem
        have hin := (text_sublist (marks s)).subset hmem
        rw [map_value_marks] at hin
        exact hnul hin
      obtain ⟨hreturned', htext'⟩ := removeHtmlTags_eq hnul'
      rw [hasGroup_marks_iff] at hreturned'
      rw [text_of_not_hasGroup (mt (hasGroup_marks_iff _).mp hno), map_value_marks] at htext'
      exact Prod.ext (Bool.eq_false_iff.mpr (mt hreturned'.mp hno)) htext'
    · rw [hreturned]
      constructor
      · intro hgroup heq
        have hshort := length_text_lt hgroup
        rw [← htext, heq, length_marks] at hshort
        exact absurd hshort (lt_irrefl _)
      · intro hchanged
        by_contra hgroup
        exact hchanged (by rw [htext, text_of_not_hasGroup hgroup, map_value_marks])

/-- Two tags inside each other, behind a `<` that opens none. -/
theorem removesTags_nested : removeHtmlTags "Te<<s<s >>sted".toList = (true, "Te<sted".toList) ∧
    ¬ Rejoins "Te<<s<s >>sted".toList := by
  have hresult : removeHtmlTags "Te<<s<s >>sted".toList = (true, "Te<sted".toList) := by decide
  refine ⟨hresult, (removesTags_iff _ (by decide)).mp ⟨?_, ?_, ?_⟩⟩
  · rw [hresult]
    rintro ⟨front, d, mid, back, heq, -⟩
    have hmem : '>' ∈ (true, "Te<sted".toList).2 := by
      rw [heq]
      simp
    exact absurd hmem (by decide)
  · rw [hresult]
    decide
  · rw [hresult]
    decide

/-- A tag that stands between the `<` and the rest of another one. -/
theorem not_removesTags_rejoined :
    removeHtmlTags "<<a>b>".toList = (true, "<b>".toList) ∧ HasTag "<b>".toList ∧
      removeHtmlTags "<b>".toList = (true, []) ∧ ¬ RemovesTags "<<a>b>".toList := by
  have hresult : removeHtmlTags "<<a>b>".toList = (true, "<b>".toList) := by decide
  have htag : HasTag "<b>".toList := ⟨[], 'b', [], [], by decide, by decide⟩
  refine ⟨hresult, htag, by decide, fun h => h.1 ?_⟩
  rw [hresult]
  exact htag

end VoipBill
