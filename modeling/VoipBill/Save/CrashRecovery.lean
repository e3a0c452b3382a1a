import VoipBill.Lib.Run
import VoipBill.Save.CallQueue

/-!
# Both legs of a CDR, across crashes

The billing thread takes CDRs in the order of their ids and adds the two legs
of each in two separate steps, while the save thread writes partitions.  A
crash loses everything in memory; the restart resumes after the greatest
`cdr_id` that is stored.

A partition may be closed and written between the two steps.  If the process
then stops before the next commit, the terminating leg is never billed again.
`both_legs_stored_of_run` says that this is the only way to lose or to repeat a
leg: legs are billed in the order `legs`, what is stored is a first part of it,
and a first part with no originating leg alone at its end is the legs of the
CDRs up to the greatest stored id.
-/

namespace VoipBill

open Lib

/-- Rows of `calls_cdr.cdr`: ids come from a sequence. -/
structure CdrTable where
  rows : List Cdr
  sorted : rows.Pairwise fun a b => a.id < b.id
  pos : ∀ cdr ∈ rows, 0 < cdr.id

def cdrsPartitionSize : Nat := 25000

def cdrsMaxQueueSize : Nat := 50000

/-- `MAX(..)` over a column, read as a number: 0 when there is no row. -/
def maxOrZero (xs : List Int) : Int := xs.max?.getD 0

/-- The container after `loadAll`; `loaded` has the counter rows that are read
from the database. -/
def DataBillingContainer.restart (db : CallsDb) (loaded : DataBillingContainer) :
    DataBillingContainer where
  calls :=
    let lastId := maxOrZero (db.storedCalls.map Call.id)
    let lastTime := maxOrZero (db.storedCalls.map Call.connectTime)
    { CallsManager.clear with
      realtimeLastId := lastId
      storedLastId := lastId
      realtimeLastTime := lastTime
      storedLastTime := lastTime }
  statsAccount := { loaded.statsAccount with parts := [∅] }
  statsFreemin := { loaded.statsFreemin with parts := [∅] }
  statsPackage := { loaded.statsPackage with parts := [∅] }
  statsTrunkSettings := { loaded.statsTrunkSettings with parts := [∅] }
  statsNNPPackageMinute := { loaded.statsNNPPackageMinute with parts := [∅] }

namespace CrashRecovery

/-- The container with the queue of CDRs; `term` is the terminating leg the
billing thread is about to add. -/
structure LegSys extends BillingSys where
  lastId : Int
  queue : List Cdr
  term : Option CallInfo

inductive Act where
  | loadPart (limit : Nat)
  | addOrig (orig term : CallInfo)
  | addTerm
  | skipCdr
  | lookup (l : Lookup)
  | save (a : SaveAct)
  | crash (loaded : DataBillingContainer)

/-- What pricing leaves as `Billing::calc` sets it. -/
structure IsLegs (cdr : Cdr) (lastCallId : Int) (orig term : Call) : Prop where
  origId : orig.id = lastCallId + 1
  origPeerId : orig.peerId = lastCallId + 2
  origCdrId : orig.cdrId = cdr.id
  isOrig : orig.orig = true
  termId : term.id = lastCallId + 2
  termPeerId : term.peerId = lastCallId + 1
  termCdrId : term.cdrId = cdr.id
  isTerm : term.orig = false

instance (cdr : Cdr) (lastCallId : Int) (orig term : Call) :
    Decidable (IsLegs cdr lastCallId orig term) :=
  decidable_of_iff
    (orig.id = lastCallId + 1 ∧ orig.peerId = lastCallId + 2 ∧ orig.cdrId = cdr.id ∧
      orig.orig = true ∧ term.id = lastCallId + 2 ∧ term.peerId = lastCallId + 1 ∧
      term.cdrId = cdr.id ∧ term.orig = false)
    ⟨fun ⟨h1, h2, h3, h4, h5, h6, h7, h8⟩ => ⟨h1, h2, h3, h4, h5, h6, h7, h8⟩,
      fun ⟨h1, h2, h3, h4, h5, h6, h7, h8⟩ => ⟨h1, h2, h3, h4, h5, h6, h7, h8⟩⟩

section

variable (table : CdrTable) (skip : Cdr → Bool)

/-- `skip` tells the technical legs of a mega-trunk.  A part of the CDRs is
loaded with any limit up to the size of a part, as fewer rows may be there yet.
Pricing may give the legs any content besides `IsLegs`. -/
def step (s : LegSys) : Act → Option LegSys
  | .loadPart limit =>
      if cdrsMaxQueueSize ≤ s.queue.length then
        none
      else
        let part := (table.rows.filter fun cdr => s.lastId < cdr.id).take
          (min limit cdrsPartitionSize)
        some { s with
          queue := s.queue ++ part
          lastId := (part.getLast?.map Cdr.id).getD s.lastId }
  | .addOrig orig term =>
      match s.term, s.queue with
      | none, cdr :: _ =>
          if skip cdr = false ∧ s.data.calls.getQueueSize < callsMaxQueueSize ∧
              IsLegs cdr s.data.calls.realtimeLastId orig.call term.call then
            some { s with toBillingSys := s.toBillingSys.addCall orig, term := some term }
          else
            none
      | _, _ => none
  | .addTerm =>
      match s.term with
      | some term =>
          some { s with
            toBillingSys := s.toBillingSys.addCall term
            term := none
            queue := s.queue.tail }
      | none => none
  | .skipCdr =>
      match s.term, s.queue with
      | none, cdr :: queue =>
          if skip cdr = true ∧ s.data.calls.getQueueSize < callsMaxQueueSize then
            some { s with queue := queue }
          else
            none
      | _, _ => none
  | .lookup l => some { s with data := s.data.lookup l }
  | .save a => (s.toBillingSys.saveStep a).map fun sys => { s with toBillingSys := sys }
  | .crash loaded =>
      some {
        data := .restart s.db loaded
        db := s.db
        saver := .idle
        lastId := maxOrZero (s.db.storedCalls.map Call.cdrId)
        queue := []
        term := none }

/-- CDR and direction of a leg. -/
def legKey (call : Call) : Int × Bool := (call.cdrId, call.orig)

/-- The legs of CDRs in the order they are added. -/
def legs (cdrs : List Cdr) : List (Int × Bool) :=
  (cdrs.filter fun cdr => skip cdr = false).flatMap fun cdr => [(cdr.id, true), (cdr.id, false)]

/-- Nothing is left to bill or to save. -/
structure Drained (s : LegSys) : Prop where
  queue : s.queue = []
  term : s.term = none
  queuedCalls : s.queuedCalls = []

/-- Every billed CDR up to the greatest stored one has each leg once. -/
def BothLegsStored (db : CallsDb) : Prop :=
  ∀ cdr ∈ table.rows, skip cdr = false → cdr.id ≤ maxOrZero (db.storedCalls.map Call.cdrId) →
    ∀ orig, (db.storedCalls.map legKey).count (cdr.id, orig) = 1

/-- No crash finds an originating leg stored without the terminating one. -/
def CrashOk (s : LegSys) : Act → Prop
  | .crash _ => ∀ call ∈ s.db.storedCalls, call.orig = true →
      ∃ term ∈ s.db.storedCalls, term.cdrId = call.cdrId ∧ term.orig = false
  | _ => True

/-! ## What is stored is a first part of the legs -/

theorem legs_append (cdrs more : List Cdr) :
    legs skip (cdrs ++ more) = legs skip cdrs ++ legs skip more := by
  simp [legs]

theorem legs_of_skip {cdr : Cdr} (h : skip cdr = true) (cdrs : List Cdr) :
    legs skip (cdr :: cdrs) = legs skip cdrs := by
  simp [legs, h]

theorem legs_of_not_skip {cdr : Cdr} (h : skip cdr = false) (cdrs : List Cdr) :
    legs skip (cdr :: cdrs) = (cdr.id, true) :: (cdr.id, false) :: legs skip cdrs := by
  simp [legs, h]

theorem mem_legs {cdrs : List Cdr} {k : Int × Bool} :
    k ∈ legs skip cdrs ↔ ∃ cdr ∈ cdrs, skip cdr = false ∧ cdr.id = k.1 := by
  obtain ⟨id, orig⟩ := k
  simp only [legs, List.mem_flatMap, List.mem_filter, decide_eq_true_eq, List.mem_cons,
    List.not_mem_nil, or_false, Prod.mk.injEq, and_assoc]
  refine exists_congr fun cdr => and_congr_right fun _ => and_congr_right fun _ => ?_
  cases orig <;> simp [eq_comm]

theorem nodup_legs {cdrs : List Cdr} (h : cdrs.Pairwise fun a b => a.id < b.id) :
    (legs skip cdrs).Nodup := by
  induction cdrs with
  | nil => simp [legs]
  | cons cdr cdrs ih =>
      rw [List.pairwise_cons] at h
      have hnot : ∀ orig, (cdr.id, orig) ∉ legs skip cdrs := by
        intro orig hmem
        obtain ⟨later, hlater, -, hid⟩ := (mem_legs skip).mp hmem
        exact absurd hid (h.1 later hlater).ne'
      cases hskip : skip cdr with
      | true => rw [legs_of_skip skip hskip]; exact ih h.2
      | false =>
          rw [legs_of_not_skip skip hskip]
          simp [hnot, ih h.2]

/-- A first part of the legs without a lone originating leg is the legs of the
CDRs up to its greatest id. -/
theorem eq_legs_filter_of_closed {cdrs : List Cdr} {w : List (Int × Bool)} {low top : Int}
    (hsorted : cdrs.Pairwise fun a b => a.id < b.id) (hlow : ∀ cdr ∈ cdrs, low < cdr.id)
    (hfirst : w <+: legs skip cdrs) (hclosed : ∀ id, (id, true) ∈ w → (id, false) ∈ w)
    (htop : ∀ k ∈ w, k.1 ≤ top) (hmax : top = low ∨ ∃ k ∈ w, k.1 = top) :
    w = legs skip (cdrs.filter fun cdr => cdr.id ≤ top) := by
  induction cdrs generalizing w low with
  | nil => simpa [legs] using hfirst
  | cons cdr cdrs ih =>
      rw [List.pairwise_cons] at hsorted
      cases hskip : skip cdr with
      | true =>
          rw [legs_of_skip skip hskip] at hfirst
          have htail := ih hsorted.2 (fun c hc => hlow c (List.mem_cons_of_mem cdr hc)) hfirst
            hclosed htop hmax
          rw [List.filter_cons]
          split
          · rw [legs_of_skip skip hskip]
            exact htail
          · exact htail
      | false =>
          rw [legs_of_not_skip skip hskip] at hfirst
          match w, hfirst with
          | [], _ =>
              -- nothing is written: no id is at most `low`
              have htop : top = low := by simpa using hmax
              have hnone : (cdr :: cdrs).filter (fun cdr => cdr.id ≤ top) = [] := by
                rw [List.filter_eq_nil_iff, htop]
                intro c hc
                simpa using hlow c hc
              rw [hnone]
              rfl
          | [k], hfirst =>
              obtain ⟨rfl, -⟩ := List.cons_prefix_cons.mp hfirst
              exact absurd (hclosed cdr.id List.mem_cons_self) (by simp)
          | k :: k' :: w, hfirst =>
              obtain ⟨hk, htail⟩ := List.cons_prefix_cons.mp hfirst
              obtain ⟨hk', hrest⟩ := List.cons_prefix_cons.mp htail
              subst hk hk'
              have hgt : ∀ k ∈ w, cdr.id < k.1 := by
                intro k hk
                obtain ⟨c, hc, -, hid⟩ := (mem_legs skip).mp (hrest.subset hk)
                exact hid ▸ hsorted.1 c hc
              have hwritten := ih hsorted.2 hsorted.1 hrest ?_
                (fun k hk => htop k (by simp [hk])) ?_
              · have hle : cdr.id ≤ top := htop (cdr.id, true) List.mem_cons_self
                rw [List.filter_cons_of_pos (by simpa using hle), legs_of_not_skip skip hskip,
                  ← hwritten]
              · intro id hid
                have hmem := hclosed id (by simp [hid])
                have hne : id ≠ cdr.id := (hgt _ hid).ne'
                simpa [hne] using hmem
              · rcases hmax with rfl | ⟨k, hk, rfl⟩
                · have hlt := hlow cdr List.mem_cons_self
                  have hle := htop (cdr.id, true) List.mem_cons_self
                  simp only at hle
                  omega
                · simp only [List.mem_cons] at hk
                  rcases hk with rfl | rfl | hk
                  · exact Or.inl rfl
                  · exact Or.inl rfl
                  · exact Or.inr ⟨k, hk, rfl⟩

theorem maxOrZero_cases (xs : List Int) :
    (∀ x ∈ xs, x ≤ maxOrZero xs) ∧ (maxOrZero xs = 0 ∨ maxOrZero xs ∈ xs) := by
  unfold maxOrZero
  cases h : xs.max? with
  | none => simp [List.max?_eq_none_iff.mp h]
  | some top =>
      obtain ⟨hmem, hle⟩ := List.max?_eq_some_iff.mp h
      exact ⟨hle, Or.inr hmem⟩

theorem filter_le_append_filter_lt {cdrs : List Cdr} (h : cdrs.Pairwise fun a b => a.id < b.id)
    (top : Int) :
    cdrs = (cdrs.filter fun cdr => cdr.id ≤ top) ++ cdrs.filter fun cdr => top < cdr.id := by
  induction cdrs with
  | nil => rfl
  | cons cdr cdrs ih =>
      rw [List.pairwise_cons] at h
      by_cases hle : cdr.id ≤ top
      · rw [List.filter_cons_of_pos (by simpa using hle),
          List.filter_cons_of_neg (by simpa using hle), List.cons_append, ← ih h.2]
      · have hnone : cdrs.filter (fun cdr => cdr.id ≤ top) = [] := by
          rw [List.filter_eq_nil_iff]
          intro c hc
          have := h.1 c hc
          simp only [decide_eq_true_eq]
          omega
        have hall : cdrs.filter (fun cdr => top < cdr.id) = cdrs := by
          rw [List.filter_eq_self]
          intro c hc
          have := h.1 c hc
          simp only [decide_eq_true_eq]
          omega
        rw [List.filter_cons_of_neg (by simpa using hle),
          List.filter_cons_of_pos (by simpa using hle), hnone, hall, List.nil_append]

/-! ## The invariant -/

/-- The CDR whose terminating leg is still to be added. -/
def current (s : LegSys) : List Cdr := if s.term.isSome then s.queue.take 1 else []

/-- `done` are the CDRs taken off the queue, `rest` those not loaded yet, and
`written` the stored legs in the order they were added. -/
structure Inv (s : LegSys) (done rest : List Cdr) (written : List (Int × Bool)) : Prop where
  save : ∃ n, SaveInv s.toBillingSys n
  rows : table.rows = done ++ s.queue ++ rest
  loaded : ∀ cdr ∈ done ++ s.queue, cdr.id ≤ s.lastId
  unloaded : ∀ cdr ∈ rest, s.lastId < cdr.id
  billing : s.term.isSome → s.queue ≠ []
  stored : (s.db.storedCalls.map legKey).Perm written
  order : written ++ s.queuedCalls.map legKey ++ s.term.toList.map (fun term => legKey term.call) =
    legs skip (done ++ current s)

variable {table skip} {s : LegSys} {done rest : List Cdr} {written : List (Int × Bool)}

theorem Inv.filter_rows (h : Inv table skip s done rest written) :
    table.rows.filter (fun cdr => s.lastId < cdr.id) = rest := by
  have hnone : (done ++ s.queue).filter (fun cdr => s.lastId < cdr.id) = [] := by
    rw [List.filter_eq_nil_iff]
    intro cdr hcdr
    simpa using h.loaded cdr hcdr
  have hall : rest.filter (fun cdr => s.lastId < cdr.id) = rest := by
    rw [List.filter_eq_self]
    intro cdr hcdr
    simpa using h.unloaded cdr hcdr
  rw [h.rows, List.filter_append, hnone, hall, List.nil_append]

theorem Inv.loadPart (h : Inv table skip s done rest written) (k : Nat) :
    Inv table skip
      { s with
        queue := s.queue ++ rest.take k
        lastId := ((rest.take k).getLast?.map Cdr.id).getD s.lastId }
      done (rest.drop k) written := by
  have hrows : table.rows = done ++ s.queue ++ rest.take k ++ rest.drop k := by
    rw [h.rows, List.append_assoc _ (rest.take k), List.take_append_drop]
  have hbounds : (∀ cdr ∈ done ++ s.queue ++ rest.take k,
        cdr.id ≤ ((rest.take k).getLast?.map Cdr.id).getD s.lastId) ∧
      ∀ cdr ∈ rest.drop k, ((rest.take k).getLast?.map Cdr.id).getD s.lastId < cdr.id := by
    rcases List.eq_nil_or_concat (rest.take k) with hnil | ⟨part, last, hpart⟩
    · rw [hnil]
      exact ⟨by simpa using h.loaded, fun cdr hcdr => h.unloaded cdr (List.mem_of_mem_drop hcdr)⟩
    · -- the last loaded row separates what is loaded from what is not
      rw [List.concat_eq_append] at hpart
      have hsorted := table.sorted
      rw [hrows, hpart, ← List.append_assoc, List.pairwise_append,
        List.pairwise_append] at hsorted
      obtain ⟨⟨-, -, hbefore⟩, -, hafter⟩ := hsorted
      rw [hpart, List.getLast?_concat, Option.map_some, Option.getD_some]
      refine ⟨fun cdr hcdr => ?_, fun cdr hcdr => hafter last (by simp) cdr hcdr⟩
      rw [← List.append_assoc, List.mem_append, List.mem_singleton] at hcdr
      rcases hcdr with hcdr | rfl
      · exact (hbefore cdr hcdr last List.mem_cons_self).le
      · exact le_rfl
  exact {
    save := h.save
    rows := by rw [hrows, List.append_assoc done]
    loaded := by rw [← List.append_assoc]; exact hbounds.1
    unloaded := hbounds.2
    billing := by
      intro hterm
      have hne := h.billing hterm
      simp [hne]
    stored := h.stored
    order := by
      have horder := h.order
      -- the leg that is being billed is still the first of the queue
      have hcurrent : current { s with
          queue := s.queue ++ rest.take k
          lastId := ((rest.take k).getLast?.map Cdr.id).getD s.lastId } = current s := by
        simp only [current]
        split
        case isTrue hterm =>
          have hpos := List.length_pos_iff.mpr (h.billing hterm)
          exact List.take_append_of_le_length hpos
        case isFalse => rfl
      rw [hcurrent]
      exact horder }

theorem Inv.addOrig (h : Inv table skip s done rest written) {cdr : Cdr} {queue : List Cdr}
    (hterm : s.term = none) (hqueue : s.queue = cdr :: queue) (hskip : skip cdr = false)
    {orig term : CallInfo} (hlegs : IsLegs cdr s.data.calls.realtimeLastId orig.call term.call) :
    Inv table skip { s with toBillingSys := s.toBillingSys.addCall orig, term := some term }
      done rest written := by
  obtain ⟨n, hsave⟩ := h.save
  obtain ⟨hsave', hqueued⟩ := hsave.addCall orig
  refine { h with save := hsave', billing := by simp [hqueue], order := ?_ }
  have horder := h.order
  simp only [current, hterm, Option.isSome_none, Bool.false_eq_true, if_false, Option.toList_none,
    List.map_nil, List.append_nil] at horder
  simp only [hqueued, current, hqueue, Option.isSome_some, if_true, Option.toList_some,
    List.map_append, List.map_cons, List.map_nil, List.take_succ_cons, List.take_zero]
  rw [← List.append_assoc, horder, legs_append, legs_of_not_skip skip hskip]
  simp [legKey, hlegs.origCdrId, hlegs.isOrig, hlegs.termCdrId, hlegs.isTerm, legs]

theorem Inv.addTerm (h : Inv table skip s done rest written) {term : CallInfo}
    (hterm : s.term = some term) :
    Inv table skip
      { s with toBillingSys := s.toBillingSys.addCall term, term := none, queue := s.queue.tail }
      (done ++ s.queue.take 1) rest written := by
  obtain ⟨n, hsave⟩ := h.save
  obtain ⟨hsave', hqueued⟩ := hsave.addCall term
  have hsplit : done ++ s.queue.take 1 ++ s.queue.tail = done ++ s.queue := by
    rw [List.append_assoc, ← List.drop_one, List.take_append_drop]
  refine {
    save := hsave'
    rows := by rw [hsplit]; exact h.rows
    loaded := by rw [hsplit]; exact h.loaded
    unloaded := h.unloaded
    billing := by simp
    stored := h.stored
    order := ?_ }
  have horder := h.order
  simp only [current, hterm, Option.isSome_some, if_true, Option.toList_some, List.map_cons,
    List.map_nil] at horder
  simp only [hqueued, current, Option.isSome_none, Bool.false_eq_true, if_false,
    Option.toList_none, List.map_append, List.map_cons, List.map_nil, List.append_nil]
  rw [← horder, List.append_assoc]

theorem Inv.skipCdr (h : Inv table skip s done rest written) {cdr : Cdr} {queue : List Cdr}
    (hterm : s.term = none) (hqueue : s.queue = cdr :: queue) (hskip : skip cdr = true) :
    Inv table skip { s with queue := queue } (done ++ [cdr]) rest written := by
  have hsplit : done ++ [cdr] ++ queue = done ++ s.queue := by
    rw [hqueue, List.append_assoc, List.singleton_append]
  refine {
    save := h.save
    rows := by rw [hsplit]; exact h.rows
    loaded := by rw [hsplit]; exact h.loaded
    unloaded := h.unloaded
    billing := by simp [hterm]
    stored := h.stored
    order := ?_ }
  have horder := h.order
  simp only [current, hterm, Option.isSome_none, Bool.false_eq_true, if_false,
    List.append_nil] at horder ⊢
  rw [horder, legs_append, legs_of_skip skip hskip]
  simp [legs]

theorem Inv.saveStep (h : Inv table skip s done rest written) {a : SaveAct} {sys : BillingSys}
    (hsys : s.toBillingSys.saveStep a = some sys) :
    ∃ written', Inv table skip { s with toBillingSys := sys } done rest written' := by
  obtain ⟨n, hsave⟩ := h.save
  obtain ⟨n', part, hsave', hqueued, hextends⟩ := hsave.saveStep hsys
  refine ⟨written ++ part.map legKey, { h with save := ⟨n', hsave'⟩, stored := ?_, order := ?_ }⟩
  · have hstored := hextends.storedCalls.map legKey
    rw [List.map_append] at hstored
    exact hstored.trans (h.stored.append_right _)
  · have horder := h.order
    rw [hqueued, List.map_append, ← List.append_assoc] at horder
    exact horder

/-- **Crash.**  If no originating leg is stored alone, the restart resumes right
after what is stored. -/
theorem Inv.crash (h : Inv table skip s done rest written) (loaded : DataBillingContainer)
    (hok : CrashOk s (.crash loaded)) {s' : LegSys}
    (hs : step table skip s (.crash loaded) = some s') :
    ∃ done' rest', Inv table skip s' done' rest' written := by
  rw [step, Option.some.injEq] at hs
  subst hs
  generalize htop : maxOrZero (s.db.storedCalls.map Call.cdrId) = top
  obtain ⟨hle, hmax⟩ := maxOrZero_cases (s.db.storedCalls.map Call.cdrId)
  rw [htop] at hle hmax
  have hmem : ∀ k, k ∈ written ↔ ∃ call ∈ s.db.storedCalls, legKey call = k := by
    intro k
    rw [← h.stored.mem_iff, List.mem_map]
  -- what was written is a beginning of the legs of all rows
  have hfirst : written <+: legs skip table.rows := by
    have hcurrent : done ++ current s <+: table.rows := by
      rw [h.rows, List.append_assoc]
      refine (List.prefix_append_right_inj done).mpr ?_
      simp only [current]
      split
      · exact (List.take_prefix 1 s.queue).trans (List.prefix_append _ _)
      · exact List.nil_prefix
    obtain ⟨later, hlater⟩ := hcurrent
    rw [← hlater, legs_append, ← h.order, List.append_assoc, List.append_assoc]
    exact List.prefix_append _ _
  -- the greatest cdr id in the database cuts the rows in two
  have hwritten := eq_legs_filter_of_closed skip table.sorted table.pos hfirst ?_ ?_ (hmax.imp id ?_)
  · refine ⟨table.rows.filter fun cdr => cdr.id ≤ top, table.rows.filter fun cdr => top < cdr.id, ?_⟩
    exact {
      save := ⟨1, SaveInv.init (by constructor <;> rfl)⟩
      rows := by
        rw [List.append_nil]
        exact filter_le_append_filter_lt table.sorted top
      loaded := by simp
      unloaded := by simp
      billing := by simp
      stored := h.stored
      order := by
        simpa [BillingSys.queuedCalls, DataBillingContainer.restart, CallsManager.clear,
          Saver.written, current] using hwritten }
  · intro id hid
    obtain ⟨call, hcall, hkey⟩ := (hmem _).mp hid
    rw [legKey, Prod.mk.injEq] at hkey
    obtain ⟨term, hterm, hcdr, horig⟩ := hok call hcall hkey.2
    exact (hmem _).mpr ⟨term, hterm, by rw [legKey, hcdr, hkey.1, horig]⟩
  · intro k hk
    obtain ⟨call, hcall, rfl⟩ := (hmem k).mp hk
    exact hle _ (List.mem_map_of_mem hcall)
  · intro hattained
    obtain ⟨call, hcall, hcdr⟩ := List.mem_map.mp hattained
    exact ⟨legKey call, (hmem _).mpr ⟨call, hcall, rfl⟩, hcdr⟩

/-! ## Steps and runs -/

theorem step_inv {a : Act} {s' : LegSys} (h : ∃ done rest written, Inv table skip s done rest written)
    (hok : CrashOk s a) (hs : step table skip s a = some s') :
    ∃ done rest written, Inv table skip s' done rest written := by
  obtain ⟨done, rest, written, h⟩ := h
  cases a with
  | loadPart limit =>
      simp only [step, h.filter_rows] at hs
      split at hs
      · exact absurd hs (by simp)
      · rw [Option.some.injEq] at hs
        exact ⟨done, _, written, hs ▸ h.loadPart _⟩
  | addOrig orig term =>
      rw [step] at hs
      split at hs
      case h_1 hterm hqueue =>
        split at hs
        case isTrue hlegs =>
          rw [Option.some.injEq] at hs
          exact ⟨done, rest, written, hs ▸ h.addOrig hterm hqueue hlegs.1 hlegs.2.2⟩
        case isFalse => exact absurd hs (by simp)
      case h_2 => exact absurd hs (by simp)
  | addTerm =>
      rw [step] at hs
      split at hs
      case h_1 hterm =>
        rw [Option.some.injEq] at hs
        exact ⟨_, rest, written, hs ▸ h.addTerm hterm⟩
      case h_2 => exact absurd hs (by simp)
  | skipCdr =>
      rw [step] at hs
      split at hs
      case h_1 hterm hqueue =>
        split at hs
        case isTrue hskip =>
          rw [Option.some.injEq] at hs
          exact ⟨_, rest, written, hs ▸ h.skipCdr hterm hqueue hskip.1⟩
        case isFalse => exact absurd hs (by simp)
      case h_2 => exact absurd hs (by simp)
  | lookup l =>
      rw [step, Option.some.injEq] at hs
      subst hs
      -- a lookup adds rows to the counters and no call to the queue
      obtain ⟨n, hsave⟩ := h.save
      refine ⟨done, rest, written, { h with save := ⟨n, hsave.lookup l⟩, order := ?_ }⟩
      rw [BillingSys.queuedCalls_lookup]
      exact h.order
  | save a =>
      rw [step, Option.map_eq_some_iff] at hs
      obtain ⟨sys, hsys, rfl⟩ := hs
      obtain ⟨written', h'⟩ := h.saveStep hsys
      exact ⟨done, rest, written', h'⟩
  | crash loaded =>
      obtain ⟨done', rest', h'⟩ := h.crash loaded hok hs
      exact ⟨done', rest', written, h'⟩

/-- When everything is billed and saved, the stored legs are those of the CDRs
that were taken, each once. -/
theorem Inv.bothLegsStored (h : Inv table skip s done rest written) (hdrained : Drained s) :
    BothLegsStored table skip s.db := by
  intro cdr hcdr hskip hle orig
  have hwritten : written = legs skip done := by
    simpa [hdrained.queuedCalls, hdrained.term, current] using h.order
  have hrows : table.rows = done ++ rest := by
    simpa [hdrained.queue] using h.rows
  have hsorted := table.sorted
  rw [hrows, List.pairwise_append] at hsorted
  have hstored : (s.db.storedCalls.map legKey).Perm (legs skip done) := hwritten ▸ h.stored
  -- a stored leg with an id at least that of the CDR is one of `done`
  have hdone : cdr ∈ done := by
    have hpos := table.pos cdr hcdr
    rcases (maxOrZero_cases (s.db.storedCalls.map Call.cdrId)).2 with hzero | hattained
    · omega
    · obtain ⟨call, hcall, htop⟩ := List.mem_map.mp hattained
      have hleg : legKey call ∈ legs skip done :=
        hstored.mem_iff.mp (List.mem_map_of_mem hcall)
      obtain ⟨last, hlast, -, hid⟩ := (mem_legs skip).mp hleg
      rw [hrows, List.mem_append] at hcdr
      refine hcdr.resolve_right fun hrest => ?_
      have hlt := hsorted.2.2 last hlast cdr hrest
      simp only [legKey] at hid
      omega
  rw [hstored.count_eq]
  exact List.count_eq_one_of_mem (nodup_legs skip hsorted.1)
    ((mem_legs skip).mpr ⟨cdr, hdone, hskip, rfl⟩)

/-- A restart over a database that has both legs of the CDRs up to `lastId`. -/
structure Restarted (table : CdrTable) (skip : Cdr → Bool) (s : LegSys) : Prop
    extends s.toBillingSys.Idle where
  queue : s.queue = []
  term : s.term = none
  stored : (s.db.storedCalls.map legKey).Perm
    (legs skip (table.rows.filter fun cdr => cdr.id ≤ s.lastId))

theorem Inv.init (h : Restarted table skip s) :
    Inv table skip s (table.rows.filter fun cdr => cdr.id ≤ s.lastId)
      (table.rows.filter fun cdr => s.lastId < cdr.id)
      (legs skip (table.rows.filter fun cdr => cdr.id ≤ s.lastId)) where
  save := ⟨1, SaveInv.init h.toIdle⟩
  rows := by
    rw [h.queue, List.append_nil]
    exact filter_le_append_filter_lt table.sorted s.lastId
  loaded := by simp [h.queue]
  unloaded := by simp
  billing := by simp [h.term]
  stored := h.stored
  order := by
    simp [BillingSys.queuedCalls, h.calls, h.saver, h.term, Saver.written, current]

/-- **Both legs.**  In every run whose crashes never find an originating leg
stored without its terminating leg, a state with nothing left to bill or to save
has both legs of every billed CDR, each once. -/
theorem both_legs_stored_of_run {t : LegSys} {as : List Act} (hs : Restarted table skip s)
    (hok : Meets (step table skip) CrashOk s as) (hrun : run (step table skip) s as = some t)
    (hdrained : Drained t) : BothLegsStored table skip t.db := by
  have hinv : ∃ done rest written, Inv table skip t done rest written :=
    run_invariant_of_meets (fun _ _ _ h hok hstep => step_inv h hok hstep)
      ⟨_, _, _, Inv.init hs⟩ hok hrun
  obtain ⟨done, rest, written, h⟩ := hinv
  exact h.bothLegsStored hdrained

end

/-- One CDR. -/
def oneCdr : CdrTable where
  rows := [{ id := 1 }]
  sorted := List.pairwise_singleton _ _
  pos := by simp

/-- Nothing is loaded, stored or queued. -/
def start : LegSys :=
  ⟨⟨DataBillingContainer.restart ⟨∅, ∅, ∅, ∅, ∅, ∅⟩ .empty, ⟨∅, ∅, ∅, ∅, ∅, ∅⟩, .idle⟩, 0, [], none⟩

def leg (orig : Bool) : CallInfo :=
  { call :=
      { id := if orig then 1 else 2
        peerId := if orig then 2 else 1
        cdrId := 1
        orig := orig } }

/-- Both legs are added and saved. -/
def savedTogether : List Act :=
  [.loadPart 1, .addOrig (leg true) (leg false), .addTerm, .save .start, .save .prepare,
    .save .prepare, .save .prepare, .save .prepare, .save .prepare, .save .prepare, .save .commit]

/-- The save starts between the two legs. -/
def savedBetween : List Act :=
  [.loadPart 1, .addOrig (leg true) (leg false), .save .start, .addTerm, .save .prepare,
    .save .prepare, .save .prepare, .save .prepare, .save .prepare, .save .prepare, .save .commit]

theorem start_restarted : Restarted oneCdr (fun _ => false) start where
  toIdle := by constructor <;> rfl
  queue := rfl
  term := rfl
  stored := by decide +kernel

theorem both_legs_stored_of_savedTogether :
    ∃ t, run (step oneCdr fun _ => false) start (savedTogether ++ [.crash .empty]) = some t ∧
      Drained t ∧ t.db.storedCalls.length = 2 ∧ BothLegsStored oneCdr (fun _ => false) t.db := by
  have hlegs : (run (step oneCdr fun _ => false) start savedTogether).all
      (fun t => ∀ call ∈ t.db.storedCalls, call.orig = true →
        ∃ term ∈ t.db.storedCalls, term.cdrId = call.cdrId ∧ term.orig = false) = true := by
    decide +kernel
  have hend : (run (step oneCdr fun _ => false) start (savedTogether ++ [.crash .empty])).any
      (fun t => t.queue = [] ∧ t.term.isNone ∧ t.queuedCalls = [] ∧
        t.db.storedCalls.length = 2) = true := by
    decide +kernel
  have hok : Meets (step oneCdr fun _ => false) CrashOk start
      (savedTogether ++ [.crash .empty]) := by
    refine meets_append (meets_of_forall (by simp [savedTogether, CrashOk]) _) fun t ht => ?_
    rw [Option.all_eq_true] at hlegs
    have hcrash := of_decide_eq_true (hlegs t ht)
    exact ⟨hcrash, fun _ _ => trivial⟩
  obtain ⟨t, hrun, ht⟩ := (Option.any_eq_true _ _).mp hend
  obtain ⟨hqueue, hterm, hqueued, hlength⟩ := of_decide_eq_true ht
  have hdrained : Drained t := ⟨hqueue, Option.isNone_iff_eq_none.mp hterm, hqueued⟩
  exact ⟨t, hrun, hdrained, hlength, both_legs_stored_of_run start_restarted hok hrun hdrained⟩

/-- The terminating leg is lost when the process stops after a save that
started between the two legs. -/
theorem both_legs_not_stored_of_savedBetween :
    ∃ t, run (step oneCdr fun _ => false) start (savedBetween ++ [.crash .empty]) = some t ∧
      Drained t ∧ ¬ BothLegsStored oneCdr (fun _ => false) t.db := by
  have hend : (run (step oneCdr fun _ => false) start (savedBetween ++ [.crash .empty])).any
      (fun t => t.queue = [] ∧ t.term.isNone ∧ t.queuedCalls = [] ∧
        maxOrZero (t.db.storedCalls.map Call.cdrId) = 1 ∧
        (t.db.storedCalls.map legKey).count (1, false) = 0) = true := by
    decide +kernel
  obtain ⟨t, hrun, ht⟩ := (Option.any_eq_true _ _).mp hend
  obtain ⟨hqueue, hterm, hqueued, htop, hcount⟩ := of_decide_eq_true ht
  refine ⟨t, hrun, ⟨hqueue, Option.isNone_iff_eq_none.mp hterm, hqueued⟩, fun hboth => ?_⟩
  have hone := hboth { id := 1 } List.mem_cons_self rfl (by rw [htop]) false
  simp only [hcount] at hone
  exact absurd hone (by decide)

end CrashRecovery
end VoipBill
