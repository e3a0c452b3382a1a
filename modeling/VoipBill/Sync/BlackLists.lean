import Mathlib
import VoipBill.Lib.Run

/-!
# The lists of blocked numbers on the switch

The switch keeps four lists of blocked numbers and trunks.  For each of them a
`BlackList` holds a copy, `blacklist`.  One thread pushes the wanted numbers: it
compares them with the copy and sends a command for every difference.  Another
thread fetches the list of the switch and replaces the copy.

A command travels over UDP.  It may be refused, and it may be executed while its
answer is lost; and the fetch takes the lock only after it has read the list, so
that a command may fall between the two.

* `commands_as_wanted`: in every run, a number is only blocked if it is wanted,
  and only unblocked if it is not;
* `blocked_iff_wanted`: a fetch and a push that nothing disturbs bring a number
  in order from any state of the switch and the copy;
* `stays_blocked`: a number the copy has missed stays blocked until a fetch.
-/

namespace VoipBill

open Lib

/-- A number or the name of a trunk. -/
abbrev Phone := List Char

/-- The fields of `BlackList`. -/
structure BlackList where
  blacklist : Finset Phone
  listToAdd : Finset Phone
  listToDel : Finset Phone

namespace BlackList

/-- A command to the switch. -/
inductive Command where
  | lock (phone : Phone)
  | unlock (phone : Phone)
deriving DecidableEq

namespace Command

def phone : Command → Phone
  | lock phone => phone
  | unlock phone => phone

/-- What the switch does with its list, and `push` with its copy. -/
def apply (blacklist : Finset Phone) : Command → Finset Phone
  | lock phone => insert phone blacklist
  | unlock phone => blacklist.erase phone

end Command

/-- The first part of `push`: the differences between the copy and the wanted
numbers. -/
def diff (list : BlackList) (wantedBlacklist : Finset Phone) : BlackList where
  blacklist := list.blacklist
  listToAdd := wantedBlacklist.filter (· ∉ list.blacklist)
  listToDel := list.blacklist.filter (· ∉ wantedBlacklist)

/-- The two loops of `push`, each in the order of its set. -/
def commands (list : BlackList) : List Command :=
  (list.listToAdd.sort (· ≤ ·)).map .lock ++ (list.listToDel.sort (· ≤ ·)).map .unlock

/-! ## The reply to a request for the list -/

/-- `split` at commas, adjacent ones taken together.  The flag says that the
character before was a comma. -/
def splitAtCommas : Bool → List Char → List Phone
  | _, [] => [[]]
  | comma, c :: cs =>
      if c = ',' then
        if comma then splitAtCommas true cs else [] :: splitAtCommas true cs
      else
        match splitAtCommas false cs with
        | [] => [[c]]
        | phone :: phones => (c :: phone) :: phones

/-- What `recv` leaves of a datagram in its buffer. -/
def recv (datagram : List Char) : List Char := datagram.take 20480

/-- The list in the reply; `none` if the switch reports an error. -/
def readList (res : List Char) : Option (List Phone) :=
  if res = ['0'] then none
  else if res = [] then some []
  else some (splitAtCommas false res)

/-- A list as the switch prints it. -/
def printList (phones : List Phone) : List Char := [','].intercalate phones

/-- What the switch prints: numbers are not empty and have no commas. -/
def IsPhone (phone : Phone) : Prop := phone ≠ [] ∧ ',' ∉ phone

theorem splitAtCommas_append {phone : Phone} (hphone : ',' ∉ phone) (comma : Bool)
    (hne : phone ≠ []) (cs : List Char) :
    splitAtCommas comma (phone ++ cs) =
      match splitAtCommas false cs with
      | [] => [phone]
      | p :: ps => (phone ++ p) :: ps := by
  induction phone generalizing comma with
  | nil => exact absurd rfl hne
  | cons c phone ih =>
      rw [List.mem_cons, not_or] at hphone
      have hc : c ≠ ',' := Ne.symm hphone.1
      rw [List.cons_append, splitAtCommas, if_neg hc]
      rcases phone with _ | ⟨d, phone⟩
      · rfl
      · rw [ih hphone.2 false (by simp)]
        cases splitAtCommas false cs with
        | nil => rfl
        | cons p ps => rfl

theorem printList_cons_cons (phone next : Phone) (phones : List Phone) :
    printList (phone :: next :: phones) = phone ++ ',' :: printList (next :: phones) := by
  rw [printList, List.intercalate_cons_cons, List.append_assoc]
  rfl

/-- A printed list is split into its numbers. -/
theorem splitAtCommas_printList {phone : Phone} {phones : List Phone}
    (hphones : ∀ p ∈ phone :: phones, IsPhone p) (comma : Bool) :
    splitAtCommas comma (printList (phone :: phones)) = phone :: phones := by
  induction phones generalizing phone comma with
  | nil =>
      have hphone := hphones phone List.mem_cons_self
      have happend := splitAtCommas_append hphone.2 comma hphone.1 []
      simpa [printList, splitAtCommas] using happend
  | cons next phones ih =>
      have hphone := hphones phone List.mem_cons_self
      have hrest : ∀ p ∈ next :: phones, IsPhone p :=
        fun p hp => hphones p (List.mem_cons_of_mem _ hp)
      have hcut : splitAtCommas false (',' :: printList (next :: phones)) =
          [] :: next :: phones := by
        rw [splitAtCommas, if_pos rfl, if_neg (by simp), ih hrest]
      rw [printList_cons_cons, splitAtCommas_append hphone.2 comma hphone.1, hcut]
      exact congrArg (· :: next :: phones) (List.append_nil phone)

/-- The tokens and the commas between them are no longer than the text. -/
theorem length_splitAtCommas (comma : Bool) (cs : List Char) :
    ((splitAtCommas comma cs).map fun p => p.length + 1).sum ≤ cs.length + 1 := by
  induction cs generalizing comma with
  | nil => simp [splitAtCommas]
  | cons c cs ih =>
      rw [splitAtCommas]
      split
      · have htail := ih true
        split
        · simp only [List.length_cons]
          omega
        · simp only [List.map_cons, List.sum_cons, List.length_nil, List.length_cons]
          omega
      · have htail := ih false
        split
        case h_1 =>
          simp only [List.map_cons, List.map_nil, List.sum_cons, List.sum_nil, List.length_cons,
            List.length_nil]
          omega
        case h_2 phone phones hsplit =>
          rw [hsplit] at htail
          simp only [List.map_cons, List.sum_cons, List.length_cons] at htail ⊢
          omega

theorem length_printList (phone : Phone) (phones : List Phone) :
    (printList (phone :: phones)).length + 1 =
      ((phone :: phones).map fun p => p.length + 1).sum := by
  induction phones generalizing phone with
  | nil => simp [printList]
  | cons next phones ih =>
      have hrest := ih next
      rw [printList_cons_cons, List.length_append, List.length_cons, List.map_cons, List.sum_cons]
      omega

/-- **Reading the list of the switch.**  The fetch reads exactly the numbers the
switch blocks, each of them once, not empty and without a comma, if and only if the reply fits
into the buffer: of a longer one some number is cut off, and the rest is not read.  The list of
the single number `0` is left out: its reply is the one that stands for an error. -/
theorem readList_exact_iff {phones : List Phone} (hphones : ∀ p ∈ phones, IsPhone p)
    (hnodup : phones.Nodup) (hzero : phones ≠ [['0']]) :
    (∃ currList, readList (recv (printList phones)) = some currList ∧
        ∀ x, x ∈ currList ↔ x ∈ phones) ↔
      (printList phones).length ≤ 20480 := by
  rcases phones with _ | ⟨phone, phones⟩
  · simp [printList, recv, readList]
  have hsplit := splitAtCommas_printList hphones false
  constructor
  · rintro ⟨currList, hread, hmem⟩
    by_contra hlong
    rw [not_le] at hlong
    have hlength : (recv (printList (phone :: phones))).length = 20480 := by
      rw [recv, List.length_take]
      omega
    have hcut : splitAtCommas false (recv (printList (phone :: phones))) = currList := by
      have hzero' : recv (printList (phone :: phones)) ≠ ['0'] := by
        intro h
        rw [h] at hlength
        simp at hlength
      have hnil : recv (printList (phone :: phones)) ≠ [] := by
        intro h
        rw [h] at hlength
        simp at hlength
      rw [readList, if_neg hzero', if_neg hnil, Option.some.injEq] at hread
      exact hread
    -- all numbers in the tokens would need more room than there is
    have hsub : (phone :: phones).Subperm currList :=
      hnodup.subperm fun x hx => (hmem x).mpr hx
    obtain ⟨found, hperm, hfound⟩ := hsub
    have hsum : ((phone :: phones).map fun p => p.length + 1).sum ≤
        (currList.map fun p => p.length + 1).sum := by
      rw [← (hperm.map _).sum_eq]
      exact (hfound.map _).sum_le_sum fun _ _ => Nat.zero_le _
    have htokens := length_splitAtCommas false (recv (printList (phone :: phones)))
    rw [hcut, hlength] at htokens
    have hprinted := length_printList phone phones
    omega
  · intro hfits
    have hrecv : recv (printList (phone :: phones)) = printList (phone :: phones) :=
      List.take_of_length_le hfits
    refine ⟨phone :: phones, ?_, fun x => Iff.rfl⟩
    have hzero' : printList (phone :: phones) ≠ ['0'] := by
      intro h
      rw [h] at hsplit
      exact hzero hsplit.symm
    have hnil : printList (phone :: phones) ≠ [] := by
      intro h
      rw [h] at hsplit
      have hphone := (hphones phone List.mem_cons_self).1
      have hsplit' : [[]] = phone :: phones := hsplit
      rw [List.cons.injEq] at hsplit'
      exact hphone hsplit'.1.symm
    rw [hrecv, readList, if_neg hzero', if_neg hnil, hsplit]

theorem readList_exact_iff_two :
    (∃ currList, readList (recv (printList [['7', '1'], ['8', '2']])) = some currList ∧
        ∀ x, x ∈ currList ↔ x ∈ [['7', '1'], ['8', '2']]) ↔
      (printList [['7', '1'], ['8', '2']]).length ≤ 20480 :=
  readList_exact_iff (by simp [IsPhone]) (by decide) (by decide)

/-! ## The two threads and the switch -/

/-- Where `push` is. -/
inductive PushPhase where
  | idle
  | compared
  | sending (rest : List Command)
  | answered (command : Command) (rest : List Command)

/-- Where `fetch` is: it may have read the list and not yet taken the lock. -/
inductive FetchPhase where
  | idle
  | read (currList : List Phone)

/-- What becomes of a command: only one that is `done` is answered by `1`. -/
inductive Reply where
  | done
  | refused
  | lost
deriving DecidableEq

/-- A list of the switch, its copy, the threads, and what was last wanted. -/
structure Sys where
  switch : Finset Phone
  list : BlackList
  push : PushPhase
  fetch : FetchPhase
  wanted : Finset Phone

inductive Act where
  | push (wantedBlacklist : Finset Phone)
  | prepare (ready : Bool)
  | send (reply : Reply)
  | update
  | finish
  | fetchRead (datagram : List Char)
  | fetchAssign
  | others (switch : Finset Phone)

def step (s : Sys) : Act → Option Sys
  | .push wantedBlacklist =>
      match s.push with
      | .idle => some { s with
          list := s.list.diff wantedBlacklist
          push := .compared
          wanted := wantedBlacklist }
      | _ => none
  | .prepare ready =>
      match s.push with
      | .compared => some { s with push := if ready then .sending s.list.commands else .idle }
      | _ => none
  | .send reply =>
      match s.push with
      | .sending (command :: rest) =>
          match reply with
          | .done => some { s with
              switch := command.apply s.switch
              push := .answered command rest }
          | .refused => some { s with push := .sending rest }
          | .lost => some { s with
              switch := command.apply s.switch
              push := .sending rest }
      | _ => none
  | .update =>
      match s.push with
      | .answered command rest => some { s with
          list := { s.list with blacklist := command.apply s.list.blacklist }
          push := .sending rest }
      | _ => none
  | .finish =>
      match s.push with
      | .sending [] => some { s with push := .idle }
      | _ => none
  | .fetchRead datagram =>
      match s.fetch with
      | .idle =>
          match readList (recv datagram) with
          | some currList => some { s with fetch := .read currList }
          | none => some s
      | _ => none
  | .fetchAssign =>
      match s.fetch with
      | .read currList => some { s with
          list := { s.list with blacklist := currList.toFinset }
          fetch := .idle }
      | _ => none
  -- another client of the switch, its restart, or a command that arrives late
  | .others switch => some { s with switch := switch }

/-- Everything a step can do. -/
theorem step_cases {s s' : Sys} {a : Act} (h : step s a = some s') :
    (∃ wantedBlacklist, a = .push wantedBlacklist ∧ s.push = .idle ∧
      s' = { s with
        list := s.list.diff wantedBlacklist
        push := .compared
        wanted := wantedBlacklist }) ∨
    (∃ ready, a = .prepare ready ∧ s.push = .compared ∧
      s' = { s with push := if ready then .sending s.list.commands else .idle }) ∨
    (∃ reply command rest, a = .send reply ∧ s.push = .sending (command :: rest) ∧
      (reply = .done ∧ s' = { s with
          switch := command.apply s.switch
          push := .answered command rest } ∨
        reply = .refused ∧ s' = { s with push := .sending rest } ∨
        reply = .lost ∧ s' = { s with
          switch := command.apply s.switch
          push := .sending rest })) ∨
    (∃ command rest, a = .update ∧ s.push = .answered command rest ∧
      s' = { s with
        list := { s.list with blacklist := command.apply s.list.blacklist }
        push := .sending rest }) ∨
    (a = .finish ∧ s.push = .sending [] ∧ s' = { s with push := .idle }) ∨
    (∃ datagram, a = .fetchRead datagram ∧ s.fetch = .idle ∧
      (readList (recv datagram) = none ∧ s' = s ∨
        ∃ currList, readList (recv datagram) = some currList ∧
          s' = { s with fetch := .read currList })) ∨
    (∃ currList, a = .fetchAssign ∧ s.fetch = .read currList ∧
      s' = { s with
        list := { s.list with blacklist := currList.toFinset }
        fetch := .idle }) ∨
    (∃ switch, a = .others switch ∧ s' = { s with switch := switch }) := by
  obtain ⟨switch, list, push, fetch, wanted⟩ := s
  cases a with
  | push wantedBlacklist =>
      left
      simp only [step] at h
      split at h
      case h_1 => exact ⟨_, rfl, rfl, (Option.some.inj h).symm⟩
      case h_2 => exact absurd h (by simp)
  | prepare ready =>
      right; left
      simp only [step] at h
      split at h
      case h_1 => exact ⟨_, rfl, rfl, (Option.some.inj h).symm⟩
      case h_2 => exact absurd h (by simp)
  | send reply =>
      right; right; left
      simp only [step] at h
      split at h
      case h_1 command rest =>
        refine ⟨reply, command, rest, rfl, rfl, ?_⟩
        -- a lost answer changes the switch, but not the copy
        cases reply with
        | done => exact Or.inl ⟨rfl, (Option.some.inj h).symm⟩
        | refused => exact Or.inr (Or.inl ⟨rfl, (Option.some.inj h).symm⟩)
        | lost => exact Or.inr (Or.inr ⟨rfl, (Option.some.inj h).symm⟩)
      case h_2 => exact absurd h (by simp)
  | update =>
      right; right; right; left
      simp only [step] at h
      split at h
      case h_1 => exact ⟨_, _, rfl, rfl, (Option.some.inj h).symm⟩
      case h_2 => exact absurd h (by simp)
  | finish =>
      right; right; right; right; left
      simp only [step] at h
      split at h
      case h_1 => exact ⟨rfl, rfl, (Option.some.inj h).symm⟩
      case h_2 => exact absurd h (by simp)
  | fetchRead datagram =>
      right; right; right; right; right; left
      simp only [step] at h
      split at h
      case h_1 =>
        refine ⟨datagram, rfl, rfl, ?_⟩
        split at h
        case h_1 currList hlist => exact Or.inr ⟨currList, hlist, (Option.some.inj h).symm⟩
        case h_2 hlist => exact Or.inl ⟨hlist, (Option.some.inj h).symm⟩
      case h_2 => exact absurd h (by simp)
  | fetchAssign =>
      right; right; right; right; right; right; left
      simp only [step] at h
      split at h
      case h_1 => exact ⟨_, rfl, rfl, (Option.some.inj h).symm⟩
      case h_2 => exact absurd h (by simp)
  | others switch =>
      right; right; right; right; right; right; right
      exact ⟨switch, rfl, (Option.some.inj h).symm⟩

/-! ## What commands do to one number -/

/-- A command does not look at other numbers, and it sets its own. -/
theorem mem_apply_congr {x : Phone} {b b' : Finset Phone} (command : Command)
    (h : command.phone ≠ x → (x ∈ b ↔ x ∈ b')) :
    x ∈ command.apply b ↔ x ∈ command.apply b' := by
  cases command with
  | lock phone =>
      by_cases hx : phone = x
      · simp [Command.apply, hx]
      · simp [Command.apply, h hx]
  | unlock phone =>
      by_cases hx : phone = x
      · simp [Command.apply, hx]
      · simp [Command.apply, h hx]

theorem mem_apply_of_ne {x : Phone} {command : Command} (h : command.phone ≠ x)
    (b : Finset Phone) : x ∈ command.apply b ↔ x ∈ b := by
  cases command with
  | lock phone => simp [Command.apply, Ne.symm (show phone ≠ x from h)]
  | unlock phone => simp [Command.apply, Ne.symm (show phone ≠ x from h)]

theorem mem_foldl_congr {x : Phone} {b b' : Finset Phone} (commands : List Command)
    (h : x ∈ b ↔ x ∈ b') :
    x ∈ commands.foldl (fun b c => c.apply b) b ↔
      x ∈ commands.foldl (fun b c => c.apply b) b' := by
  induction commands generalizing b b' with
  | nil => exact h
  | cons command commands ih => exact ih (mem_apply_congr command fun _ => h)

theorem mem_foldl_lock (phones : List Phone) (x : Phone) (b : Finset Phone) :
    x ∈ (phones.map Command.lock).foldl (fun b c => c.apply b) b ↔ x ∈ phones ∨ x ∈ b := by
  induction phones generalizing b with
  | nil => simp
  | cons phone phones ih =>
      rw [List.map_cons, List.foldl_cons, ih, Command.apply, Finset.mem_insert, List.mem_cons]
      tauto

theorem mem_foldl_unlock (phones : List Phone) (x : Phone) (b : Finset Phone) :
    x ∈ (phones.map Command.unlock).foldl (fun b c => c.apply b) b ↔ x ∉ phones ∧ x ∈ b := by
  induction phones generalizing b with
  | nil => simp
  | cons phone phones ih =>
      rw [List.map_cons, List.foldl_cons, ih, Command.apply, Finset.mem_erase, List.mem_cons]
      tauto

/-- A number the copy is right about is wanted after all commands exactly if it
is blocked. -/
theorem mem_foldl_commands {list : BlackList} {b : Finset Phone} {x : Phone}
    (h : x ∈ list.blacklist ↔ x ∈ b) (wanted : Finset Phone) :
    x ∈ (list.diff wanted).commands.foldl (fun b c => c.apply b) b ↔ x ∈ wanted := by
  rw [commands, List.foldl_append, mem_foldl_unlock, mem_foldl_lock]
  simp only [diff, Finset.mem_sort, Finset.mem_filter]
  rw [h]
  tauto

/-! ## Commands serve the wanted list -/

/-- The commands that are still to be sent, or whose answer is still to be noted. -/
def pending (s : Sys) : List Command :=
  match s.push with
  | .idle => []
  | .compared => s.list.commands
  | .sending rest => rest
  | .answered command rest => command :: rest

def Command.Serves (wanted : Finset Phone) : Command → Prop
  | lock phone => phone ∈ wanted
  | unlock phone => phone ∉ wanted

theorem serves_commands (list : BlackList) (wanted : Finset Phone) :
    ∀ command ∈ (list.diff wanted).commands, command.Serves wanted := by
  intro command hcommand
  rw [commands, List.mem_append, List.mem_map, List.mem_map] at hcommand
  rcases hcommand with ⟨phone, hphone, rfl⟩ | ⟨phone, hphone, rfl⟩
  · rw [Finset.mem_sort, diff, Finset.mem_filter] at hphone
    exact hphone.1
  · rw [Finset.mem_sort, diff, Finset.mem_filter] at hphone
    exact hphone.2

theorem Command.Serves.mem_apply {wanted : Finset Phone} {command : Command}
    (h : command.Serves wanted) (b : Finset Phone) (x : Phone) :
    (x ∈ command.apply b ↔ x ∈ b) ∨ (x ∈ command.apply b ↔ x ∈ wanted) := by
  by_cases hx : command.phone = x
  · right
    cases command with
    | lock phone =>
        have hphone : phone = x := hx
        subst hphone
        have hwanted : phone ∈ wanted := h
        simp [Command.apply, hwanted]
    | unlock phone =>
        have hphone : phone = x := hx
        subst hphone
        have hwanted : phone ∉ wanted := h
        simp [Command.apply, hwanted]
  · exact Or.inl (mem_apply_of_ne hx b)

def Serving (s : Sys) : Prop := ∀ command ∈ pending s, command.Serves s.wanted

theorem Serving.step {s s' : Sys} {a : Act} (h : Serving s) (hstep : step s a = some s') :
    Serving s' := by
  rcases step_cases hstep with ⟨wanted, rfl, hpush, rfl⟩ | ⟨ready, rfl, hpush, rfl⟩ |
    ⟨reply, command, rest, rfl, hpush, hreply⟩ | ⟨command, rest, rfl, hpush, rfl⟩ |
    ⟨rfl, hpush, rfl⟩ | ⟨datagram, rfl, hfetch, ⟨-, rfl⟩ | ⟨currList, -, rfl⟩⟩ |
    ⟨currList, rfl, hfetch, rfl⟩ | ⟨switch, rfl, rfl⟩
  · exact serves_commands s.list wanted
  · rw [Serving, pending, hpush] at h
    cases ready with
    | false => exact fun command hcommand => absurd hcommand List.not_mem_nil
    | true => exact h
  · rw [Serving, pending, hpush] at h
    have hrest : ∀ c ∈ rest, c.Serves s.wanted := fun c hc => h c (List.mem_cons_of_mem _ hc)
    rcases hreply with ⟨-, rfl⟩ | ⟨-, rfl⟩ | ⟨-, rfl⟩
    · exact h
    · exact hrest
    · exact hrest
  · rw [Serving, pending, hpush] at h
    exact fun c hc => h c (List.mem_cons_of_mem _ hc)
  · exact fun command hcommand => absurd hcommand List.not_mem_nil
  · exact h
  · exact h
  · -- the lists of differences are not fetched again
    exact h
  · exact h

/-- **Commands serve the wanted list.**  However stale the copy is and whatever
becomes of commands and answers, a step of this program only changes whether a
number is blocked to what was last wanted. -/
theorem commands_as_wanted {s t u : Sys} {as : List Act} {a : Act} (hidle : s.push = .idle)
    (hrun : run step s as = some t) (hstep : step t a = some u)
    (hown : ∀ switch, a ≠ .others switch) (x : Phone) :
    (x ∈ u.switch ↔ x ∈ t.switch) ∨ (x ∈ u.switch ↔ x ∈ u.wanted) := by
  have hserving : Serving t := by
    refine run_invariant (fun _ _ _ h hs => Serving.step h hs) ?_ hrun
    rw [Serving, pending, hidle]
    exact fun command hcommand => absurd hcommand List.not_mem_nil
  rcases step_cases hstep with ⟨wanted, rfl, hpush, rfl⟩ | ⟨ready, rfl, hpush, rfl⟩ |
    ⟨reply, command, rest, rfl, hpush, hreply⟩ | ⟨command, rest, rfl, hpush, rfl⟩ |
    ⟨rfl, hpush, rfl⟩ | ⟨datagram, rfl, hfetch, ⟨-, rfl⟩ | ⟨currList, -, rfl⟩⟩ |
    ⟨currList, rfl, hfetch, rfl⟩ | ⟨switch, rfl, rfl⟩
  · exact Or.inl Iff.rfl
  · exact Or.inl Iff.rfl
  · rw [Serving, pending, hpush] at hserving
    have hserves : command.Serves t.wanted := hserving command List.mem_cons_self
    rcases hreply with ⟨-, rfl⟩ | ⟨-, rfl⟩ | ⟨-, rfl⟩
    · exact hserves.mem_apply t.switch x
    · exact Or.inl Iff.rfl
    · exact hserves.mem_apply t.switch x
  · exact Or.inl Iff.rfl
  · exact Or.inl Iff.rfl
  · exact Or.inl Iff.rfl
  · exact Or.inl Iff.rfl
  · exact Or.inl Iff.rfl
  · exact absurd rfl (hown switch)

/-- A switch that blocks `7`, before anything was fetched. -/
def blockedSeven : Sys where
  switch := {['7']}
  list := ⟨∅, ∅, ∅⟩
  push := .idle
  fetch := .idle
  wanted := ∅

theorem commands_as_wanted_lostAnswer :
    (['8'] ∈ ({['8'], ['7']} : Finset Phone) ↔ ['8'] ∈ ({['7']} : Finset Phone)) ∨
      (['8'] ∈ ({['8'], ['7']} : Finset Phone) ↔ ['8'] ∈ ({['8']} : Finset Phone)) := by
  -- `8` is wanted; the LOCK is executed and its answer lost
  have hrun : run step blockedSeven [.push {['8']}, .prepare true] = some { blockedSeven with
      list := ⟨∅, {['8']}, ∅⟩
      push := .sending [.lock ['8']]
      wanted := {['8']} } := by
    simp [run, step, blockedSeven, BlackList.diff, commands]
  have hstep : step { blockedSeven with
      list := ⟨∅, {['8']}, ∅⟩
      push := .sending [.lock ['8']]
      wanted := {['8']} } (.send .lost) = some { blockedSeven with
      switch := {['8'], ['7']}
      list := ⟨∅, {['8']}, ∅⟩
      push := .sending []
      wanted := {['8']} } := by
    simp [step, blockedSeven, Command.apply]
  exact commands_as_wanted rfl hrun hstep (by simp) ['8']

/-! ## Bringing a number in order -/

/-- The copy, with the answer that is still to be noted. -/
def copy (s : Sys) : Finset Phone :=
  match s.push with
  | .answered command _ => command.apply s.list.blacklist
  | _ => s.list.blacklist

/-- What the switch will block after all commands of this push. -/
def target (s : Sys) : Finset Phone :=
  match s.push with
  | .idle => s.switch
  | .compared => s.list.commands.foldl (fun b c => c.apply b) s.switch
  | .sending rest => rest.foldl (fun b c => c.apply b) s.switch
  | .answered _ rest => rest.foldl (fun b c => c.apply b) s.switch

/-- The step does not come between the copy and the switch: no answer for the
number is lost, none is executed after a fetch has read the list, the list is
read as it is, and nobody else changes the number. -/
def Undisturbed (x : Phone) (s : Sys) : Act → Prop
  | .send reply =>
      match s.push with
      | .sending (command :: _) =>
          command.phone = x → reply ≠ .lost ∧ (reply = .done → s.fetch = .idle)
      | _ => True
  | .fetchRead datagram =>
      ∀ currList, readList (recv datagram) = some currList → (x ∈ currList ↔ x ∈ s.switch)
  | .others switch => x ∈ switch ↔ x ∈ s.switch
  | _ => True

/-- The step carries a push on: the repository is ready, and a command for the
number is done. -/
def Carried (x : Phone) (s : Sys) : Act → Prop
  | .prepare ready => ready = true
  | .send reply =>
      match s.push with
      | .sending (command :: _) => command.phone = x → reply = .done
      | _ => True
  | _ => True

/-- What a fetch has read is right about the number, and so is an answer. -/
structure Fresh (x : Phone) (s : Sys) : Prop where
  fetch : ∀ currList, s.fetch = .read currList → (x ∈ currList ↔ x ∈ s.switch)
  answered : ∀ command rest, s.push = .answered command rest → command.phone = x →
    ∀ b, x ∈ command.apply b ↔ x ∈ s.switch

/-- The copy is right about the number. -/
structure Agrees (x : Phone) (s : Sys) : Prop extends Fresh x s where
  copied : x ∈ copy s ↔ x ∈ s.switch

theorem Fresh.step {x : Phone} {s s' : Sys} {a : Act} (h : Fresh x s)
    (hquiet : Undisturbed x s a) (hstep : step s a = some s') : Fresh x s' := by
  rcases step_cases hstep with ⟨wanted, rfl, hpush, rfl⟩ | ⟨ready, rfl, hpush, rfl⟩ |
    ⟨reply, command, rest, rfl, hpush, hreply⟩ | ⟨command, rest, rfl, hpush, rfl⟩ |
    ⟨rfl, hpush, rfl⟩ | ⟨datagram, rfl, hfetch, ⟨-, rfl⟩ | ⟨currList, hread, rfl⟩⟩ |
    ⟨currList, rfl, hfetch, rfl⟩ | ⟨switch, rfl, rfl⟩
  · exact ⟨h.fetch, fun _ _ hanswered => absurd hanswered (by simp)⟩
  · refine ⟨h.fetch, fun _ _ hanswered => ?_⟩
    cases ready with
    | false => exact absurd hanswered (by simp)
    | true => exact absurd hanswered (by simp)
  · simp only [Undisturbed, hpush] at hquiet
    -- a command for another number leaves this one as it is
    have hother : command.phone ≠ x → (x ∈ command.apply s.switch ↔ x ∈ s.switch) :=
      fun hx => mem_apply_of_ne hx s.switch
    rcases hreply with ⟨hdone, rfl⟩ | ⟨-, rfl⟩ | ⟨hlost, rfl⟩
    · constructor
      · intro currList hfetch
        by_cases hx : command.phone = x
        · rw [(hquiet hx).2 hdone] at hfetch
          exact absurd hfetch (by simp)
        · exact (h.fetch currList hfetch).trans (hother hx).symm
      · intro c r hanswered hx b
        obtain ⟨rfl, rfl⟩ := PushPhase.answered.inj hanswered
        exact mem_apply_congr command fun hne => absurd hx hne
    · exact ⟨h.fetch, fun _ _ hanswered => absurd hanswered (by simp)⟩
    · have hx : command.phone ≠ x := fun hx => (hquiet hx).1 hlost
      refine ⟨fun currList hfetch => ?_, fun _ _ hanswered => absurd hanswered (by simp)⟩
      exact (h.fetch currList hfetch).trans (hother hx).symm
  · exact ⟨h.fetch, fun _ _ hanswered => absurd hanswered (by simp)⟩
  · exact ⟨h.fetch, fun _ _ hanswered => absurd hanswered (by simp)⟩
  · exact h
  · refine ⟨fun list hlist => ?_, h.answered⟩
    obtain rfl := FetchPhase.read.inj hlist
    exact hquiet currList hread
  · exact ⟨fun _ hlist => absurd hlist (by simp), h.answered⟩
  · simp only [Undisturbed] at hquiet
    refine ⟨fun list hlist => (h.fetch list hlist).trans hquiet.symm, ?_⟩
    exact fun command rest hanswered hx b => (h.answered command rest hanswered hx b).trans hquiet.symm

/-- The end of a fetch makes the copy right. -/
theorem Fresh.agrees {x : Phone} {s s' : Sys} (h : Fresh x s)
    (hstep : BlackList.step s .fetchAssign = some s') : Agrees x s' := by
  have hfresh : Fresh x s' := h.step (by simp [Undisturbed]) hstep
  rcases step_cases hstep with ⟨_, ha, -⟩ | ⟨_, ha, -⟩ | ⟨_, _, _, ha, -⟩ | ⟨_, _, ha, -⟩ | ⟨ha, -⟩ |
    ⟨_, ha, -⟩ | ⟨currList, -, hfetch, rfl⟩ | ⟨_, ha, -⟩
  case inr.inr.inr.inr.inr.inr.inl =>
    refine ⟨hfresh, ?_⟩
    have hlist : x ∈ currList.toFinset ↔ x ∈ s.switch := by
      rw [List.mem_toFinset]
      exact h.fetch currList hfetch
    simp only [copy]
    split
    case h_1 command rest hpush =>
      by_cases hx : command.phone = x
      · exact h.answered command rest hpush hx _
      · exact (mem_apply_of_ne hx _).trans hlist
    case h_2 => exact hlist
  all_goals exact absurd ha (by simp)

theorem Agrees.step {x : Phone} {s s' : Sys} {a : Act} (h : Agrees x s)
    (hquiet : Undisturbed x s a) (hstep : step s a = some s') : Agrees x s' := by
  have hfresh : Fresh x s' := h.toFresh.step hquiet hstep
  have hcopy := h.copied
  rcases step_cases hstep with ⟨wanted, rfl, hpush, rfl⟩ | ⟨ready, rfl, hpush, rfl⟩ |
    ⟨reply, command, rest, rfl, hpush, hreply⟩ | ⟨command, rest, rfl, hpush, rfl⟩ |
    ⟨rfl, hpush, rfl⟩ | ⟨datagram, rfl, hfetch, ⟨-, rfl⟩ | ⟨currList, hread, rfl⟩⟩ |
    ⟨currList, rfl, hfetch, rfl⟩ | ⟨switch, rfl, rfl⟩
  · rw [copy, hpush] at hcopy
    exact ⟨hfresh, hcopy⟩
  · rw [copy, hpush] at hcopy
    refine ⟨hfresh, ?_⟩
    cases ready with
    | false => exact hcopy
    | true => exact hcopy
  · simp only [Undisturbed, hpush] at hquiet
    rw [copy, hpush] at hcopy
    rcases hreply with ⟨-, rfl⟩ | ⟨-, rfl⟩ | ⟨hlost, rfl⟩
    · exact ⟨hfresh, mem_apply_congr command fun _ => hcopy⟩
    · exact ⟨hfresh, hcopy⟩
    · have hx : command.phone ≠ x := fun hx => (hquiet hx).1 hlost
      exact ⟨hfresh, hcopy.trans (mem_apply_of_ne hx s.switch).symm⟩
  · rw [copy, hpush] at hcopy
    exact ⟨hfresh, hcopy⟩
  · rw [copy, hpush] at hcopy
    exact ⟨hfresh, hcopy⟩
  · exact h
  · exact ⟨hfresh, hcopy⟩
  · exact h.toFresh.agrees hstep
  · exact ⟨hfresh, hcopy.trans hquiet.symm⟩

/-- After the commands of this push the number will be blocked if it is wanted. -/
def Settled (x : Phone) (s : Sys) : Prop := x ∈ target s ↔ x ∈ s.wanted

theorem settled_of_push {x : Phone} {s s' : Sys} {wanted : Finset Phone} (h : Agrees x s)
    (hstep : step s (.push wanted) = some s') : Settled x s' := by
  rcases step_cases hstep with ⟨w, ha, hpush, rfl⟩ | ⟨_, ha, -⟩ | ⟨_, _, _, ha, -⟩ | ⟨_, _, ha, -⟩ |
    ⟨ha, -⟩ | ⟨_, ha, -⟩ | ⟨_, ha, -⟩ | ⟨_, ha, -⟩
  case inl =>
    have hcopy := h.copied
    rw [copy, hpush] at hcopy
    exact mem_foldl_commands hcopy w
  all_goals exact absurd ha (by simp)

theorem Settled.step {x : Phone} {s s' : Sys} {a : Act} (h : Agrees x s ∧ Settled x s)
    (hquiet : Undisturbed x s a ∧ Carried x s a) (hstep : step s a = some s') :
    Settled x s' := by
  obtain ⟨hagrees, htarget⟩ := h
  obtain ⟨hquiet, hcarried⟩ := hquiet
  rw [Settled, target] at htarget
  rcases step_cases hstep with ⟨wanted, rfl, hpush, -⟩ | ⟨ready, rfl, hpush, rfl⟩ |
    ⟨reply, command, rest, rfl, hpush, hreply⟩ | ⟨command, rest, rfl, hpush, rfl⟩ |
    ⟨rfl, hpush, rfl⟩ | ⟨datagram, rfl, hfetch, ⟨-, rfl⟩ | ⟨currList, hread, rfl⟩⟩ |
    ⟨currList, rfl, hfetch, rfl⟩ | ⟨switch, rfl, rfl⟩
  · exact settled_of_push hagrees hstep
  · obtain rfl : ready = true := hcarried
    rw [hpush] at htarget
    exact htarget
  · simp only [Carried, hpush] at hcarried
    rw [hpush] at htarget
    -- a command that is not carried out is for another number
    have hskipped : reply ≠ .done →
        (x ∈ rest.foldl (fun b c => c.apply b) s.switch ↔ x ∈ s.wanted) := by
      intro hreply
      have hx : command.phone ≠ x := fun hx => hreply (hcarried hx)
      exact (mem_foldl_congr rest (mem_apply_of_ne hx s.switch).symm).trans htarget
    rcases hreply with ⟨-, rfl⟩ | ⟨hrefused, rfl⟩ | ⟨-, rfl⟩
    · exact htarget
    · exact hskipped (by simp [hrefused])
    · exact htarget
  · rw [hpush] at htarget
    exact htarget
  · rw [hpush] at htarget
    exact htarget
  · exact htarget
  · exact htarget
  · exact htarget
  · rw [Settled, target]
    -- what others do leaves the number alone
    simp only [Undisturbed] at hquiet
    cases hpush : s.push with
    | idle =>
        rw [hpush] at htarget
        exact hquiet.trans htarget
    | compared =>
        rw [hpush] at htarget
        exact (mem_foldl_congr _ hquiet).trans htarget
    | sending rest =>
        rw [hpush] at htarget
        exact (mem_foldl_congr _ hquiet).trans htarget
    | answered command rest =>
        rw [hpush] at htarget
        exact (mem_foldl_congr _ hquiet).trans htarget

/-- **A fetch and a push bring a number in order.**  Whatever the switch blocks
and the copy says: after a fetch that nothing disturbs, and a push whose command
for the number, if there is one, is done, the number is blocked exactly if it is
wanted. -/
theorem blocked_iff_wanted {s t u : Sys} {as bs cs : List Act} {wanted : Finset Phone} {x : Phone}
    (hpush : s.push = .idle) (hfetch : s.fetch = .idle)
    (hfetched : run step s (as ++ .fetchAssign :: bs) = some t)
    (hquiet : Meets step (Undisturbed x) s (as ++ .fetchAssign :: bs))
    (hpushed : run step t (.push wanted :: cs) = some u)
    (hcarried : Meets step (fun s a => Undisturbed x s a ∧ Carried x s a) t (.push wanted :: cs))
    (hfinished : u.push = .idle) : x ∈ u.switch ↔ x ∈ u.wanted := by
  have hfresh : Fresh x s := by
    constructor
    · exact fun _ hread => absurd (hfetch.symm.trans hread) (by simp)
    · exact fun _ _ hanswered => absurd (hpush.symm.trans hanswered) (by simp)
  -- up to the end of the fetch only what is read and answered is right
  rw [run_append, Option.bind_eq_some_iff] at hfetched
  obtain ⟨s₁, hs₁, hrest⟩ := hfetched
  obtain ⟨s₂, hassign, hbs⟩ := run_cons_eq_some hrest
  obtain ⟨hquiet, hquiet'⟩ := meets_of_append hquiet
  have hfresh₁ : Fresh x s₁ :=
    run_invariant_of_meets (fun _ _ _ h hok hs => h.step hok hs) hfresh hquiet hs₁
  have hagrees : Agrees x t :=
    run_invariant_of_meets (fun _ _ _ h hok hs => h.step hok hs) (hfresh₁.agrees hassign)
      ((hquiet' s₁ hs₁).2 s₂ hassign) hbs
  obtain ⟨t₁, hstart, hcs⟩ := run_cons_eq_some hpushed
  have hstep : ∀ s a s', (Agrees x s ∧ Settled x s) → (Undisturbed x s a ∧ Carried x s a) →
      step s a = some s' → Agrees x s' ∧ Settled x s' :=
    fun s a s' h hok hs => ⟨h.1.step hok.1 hs, Settled.step h hok hs⟩
  have hstarted : Agrees x t₁ ∧ Settled x t₁ :=
    ⟨hagrees.step hcarried.1.1 hstart, settled_of_push hagrees hstart⟩
  have hsettled := (run_invariant_of_meets hstep hstarted (hcarried.2 t₁ hstart) hcs).2
  rw [Settled, target, hfinished] at hsettled
  exact hsettled

theorem blocked_iff_wanted_unlock : ['7'] ∈ (∅ : Finset Phone) ↔ ['7'] ∈ (∅ : Finset Phone) := by
  -- the fetch finds `7` blocked, and a push of no number unblocks it
  have hfetched : run step blockedSeven ([.fetchRead ['7']] ++ .fetchAssign :: []) =
      some { blockedSeven with list := ⟨{['7']}, ∅, ∅⟩ } := by
    simp [run, step, blockedSeven, readList, recv, splitAtCommas]
  have hpushed : run step { blockedSeven with list := ⟨{['7']}, ∅, ∅⟩ }
      (.push ∅ :: [.prepare true, .send .done, .update, .finish]) =
      some { blockedSeven with switch := ∅, list := ⟨∅, ∅, {['7']}⟩ } := by
    simp [run, step, blockedSeven, BlackList.diff, commands, Command.apply]
  refine blocked_iff_wanted (x := ['7']) rfl rfl hfetched ?_ hpushed ?_ rfl
  · simp [Meets, Undisturbed, step, blockedSeven, readList, recv, splitAtCommas]
  · simp [Meets, Undisturbed, Carried, step, blockedSeven, BlackList.diff, commands, Command.apply]

/-! ## A number the copy has missed -/

/-- The number is blocked, the copy does not know it and nothing is to be done
about it. -/
structure Missed (x : Phone) (s : Sys) : Prop where
  blocked : x ∈ s.switch
  unknown : x ∉ s.list.blacklist
  pending : ∀ command ∈ pending s, command.phone ≠ x

theorem Missed.step {x : Phone} {s s' : Sys} {a : Act} (h : Missed x s)
    (hstep : step s a = some s') (hpush : ∀ wanted, a = .push wanted → x ∉ wanted)
    (hfetch : a ≠ .fetchAssign) (hothers : ∀ switch, a = .others switch → x ∈ switch) :
    Missed x s' := by
  have hpending := h.pending
  rcases step_cases hstep with ⟨wanted, rfl, hidle, rfl⟩ | ⟨ready, rfl, hcompared, rfl⟩ |
    ⟨reply, command, rest, rfl, hsending, hreply⟩ | ⟨command, rest, rfl, hanswered, rfl⟩ |
    ⟨rfl, hsending, rfl⟩ | ⟨datagram, rfl, -, ⟨-, rfl⟩ | ⟨currList, -, rfl⟩⟩ |
    ⟨currList, rfl, -, rfl⟩ | ⟨switch, rfl, rfl⟩
  · refine ⟨h.blocked, h.unknown, fun command hcommand hx => ?_⟩
    have hmem : command ∈ (s.list.diff wanted).commands := hcommand
    rw [commands, List.mem_append, List.mem_map, List.mem_map] at hmem
    -- neither set of differences has the number
    rcases hmem with ⟨phone, hphone, rfl⟩ | ⟨phone, hphone, rfl⟩
    · obtain rfl : phone = x := hx
      rw [Finset.mem_sort, diff, Finset.mem_filter] at hphone
      exact hpush wanted rfl hphone.1
    · obtain rfl : phone = x := hx
      rw [Finset.mem_sort, diff, Finset.mem_filter] at hphone
      exact h.unknown hphone.1
  · rw [BlackList.pending, hcompared] at hpending
    refine ⟨h.blocked, h.unknown, ?_⟩
    cases ready with
    | false => exact fun command hcommand => absurd hcommand List.not_mem_nil
    | true => exact hpending
  · rw [BlackList.pending, hsending] at hpending
    have hx : command.phone ≠ x := hpending command List.mem_cons_self
    have hrest : ∀ c ∈ rest, c.phone ≠ x := fun c hc => hpending c (List.mem_cons_of_mem _ hc)
    have hblocked : x ∈ command.apply s.switch := (mem_apply_of_ne hx _).mpr h.blocked
    rcases hreply with ⟨-, rfl⟩ | ⟨-, rfl⟩ | ⟨-, rfl⟩
    · exact ⟨hblocked, h.unknown, hpending⟩
    · exact ⟨h.blocked, h.unknown, hrest⟩
    · exact ⟨hblocked, h.unknown, hrest⟩
  · rw [BlackList.pending, hanswered] at hpending
    have hx : command.phone ≠ x := hpending command List.mem_cons_self
    refine ⟨h.blocked, fun hmem => h.unknown ((mem_apply_of_ne hx _).mp hmem), ?_⟩
    exact fun c hc => hpending c (List.mem_cons_of_mem _ hc)
  · exact ⟨h.blocked, h.unknown, fun command hcommand => absurd hcommand List.not_mem_nil⟩
  · exact h
  · exact ⟨h.blocked, h.unknown, hpending⟩
  · exact absurd rfl hfetch
  · exact ⟨hothers switch rfl, h.unknown, hpending⟩

/-- **A missed number stays blocked.**  If the answer to a LOCK was lost, the
switch blocks a number the copy does not have.  As long as it is not wanted, no
push of any run unblocks it, until a fetch is finished. -/
theorem stays_blocked {s t : Sys} {as : List Act} {x : Phone} (hidle : s.push = .idle)
    (hblocked : x ∈ s.switch) (hunknown : x ∉ s.list.blacklist) (hrun : run step s as = some t)
    (hpush : ∀ wanted, .push wanted ∈ as → x ∉ wanted) (hfetch : .fetchAssign ∉ as)
    (hothers : ∀ switch, .others switch ∈ as → x ∈ switch) : x ∈ t.switch := by
  have hmissed : Missed x s := by
    refine ⟨hblocked, hunknown, ?_⟩
    rw [pending, hidle]
    exact fun command hcommand => absurd hcommand List.not_mem_nil
  have hmeets : Meets step (fun _ a => a ∈ as) s as := meets_of_forall (fun a ha _ => ha) s
  have hstep : ∀ s a s', Missed x s → a ∈ as → step s a = some s' → Missed x s' := by
    intro s a s' h ha hs
    refine h.step hs ?_ ?_ ?_
    · rintro wanted rfl
      exact hpush wanted ha
    · rintro rfl
      exact hfetch ha
    · rintro switch rfl
      exact hothers switch ha
  exact (run_invariant_of_meets hstep hmissed hmeets hrun).blocked

theorem stays_blocked_afterPush : ['7'] ∈ blockedSeven.switch := by
  have hrun : run step blockedSeven [.push ∅, .prepare true, .finish] = some blockedSeven := by
    simp [run, step, blockedSeven, BlackList.diff, commands]
  exact stays_blocked rfl (by simp [blockedSeven]) (by simp [blockedSeven]) hrun (by simp) (by simp)
    (by simp)

end BlackList
end VoipBill
