import VoipBill.Lib.IntMap

/-!
# Lock records of clients

`ClientLockCounter` holds the lock records of one region and what has changed
since the last synchronisation: a mark per changed client, and a flag that asks
for all records to be written when one was removed.

`push_cases` is the specification of `push`: its records are afterwards those of
the counter, and either a record was removed and the flag is set, or every
client is as before or newly marked.
-/

namespace VoipBill

open Lib

/-- What is synchronised of a lock record. -/
structure LockFlags where
  disabledLocal : Bool := false
  disabledGlobal : Bool := false
  isFinanceBlock : Bool := false
  isOverran : Bool := false
  isMnOverran : Bool := false
deriving DecidableEq, Repr

structure ClientLockObj extends LockFlags where
  clientId : Int := 0
deriving DecidableEq, Repr

structure ClientLockCounter where
  marker : Nat
  needTotalSync : Bool
  isReady : Bool
  counter : IntMap ClientLockObj
  changes : IntMap Nat

namespace ClientLockCounter

/-- The counter as it is constructed. -/
def empty : ClientLockCounter where
  marker := 0
  needTotalSync := true
  isReady := false
  counter := ∅
  changes := ∅

/-- Reading a missing record creates it. -/
def get (c : ClientLockCounter) (clientId : Int) : ClientLockObj × ClientLockCounter :=
  match c.counter[clientId]? with
  | some value => (value, c)
  | none => ({}, { c with counter := c.counter.insert clientId {} })

/-- Give a client the next mark. -/
def mark (c : ClientLockCounter) (k : Int) : ClientLockCounter :=
  { c with marker := c.marker + 1, changes := c.changes.insert k (c.marker + 1) }

/-- One turn of the first loop of `push`. -/
def pushRecord (c : ClientLockCounter) (pair : Int × ClientLockObj) : ClientLockCounter :=
  let cc := c.counter[pair.1]?.getD {}
  if cc.clientId = 0 ∨ cc.toLockFlags ≠ pair.2.toLockFlags then
    mark { c with counter := c.counter.insert pair.1 { pair.2 with clientId := pair.1 } } pair.1
  else
    c

/-- The second loop of `push`, over the keys that are left.  The record is
erased before its key is read, so the mark goes to the next key; behind the last
record the source reads through the end of the map, and `junk` is the key it
finds there. -/
def eraseMissing (clientLocks : IntMap ClientLockObj) (junk : Int) :
    List Int → ClientLockCounter → ClientLockCounter
  | [], c => c
  | k :: rest, c =>
      match clientLocks[k]? with
      | some _ => eraseMissing clientLocks junk rest c
      | none =>
          eraseMissing clientLocks junk rest
            (mark { c with counter := c.counter.erase k, needTotalSync := true }
              (rest.headD junk))

def push (c : ClientLockCounter) (clientLocks : IntMap ClientLockObj) (junk : Int) :
    ClientLockCounter :=
  let c := clientLocks.toList.foldl pushRecord c
  { eraseMissing clientLocks junk c.counter.keys c with isReady := true }

/-- Marker, clients to write and whether all of them are. -/
def getChanges (c : ClientLockCounter) : Nat × List Int × Bool :=
  (c.marker, if c.needTotalSync then c.counter.keys else c.changes.keys, c.needTotalSync)

def fixChanges (c : ClientLockCounter) (oldMarker : Nat) : ClientLockCounter :=
  { c with changes := c.changes.filter fun _ marker => decide (oldMarker < marker) }

/-! ## Reading the counter -/

/-- The synchronised part of a record. -/
def flags (c : ClientLockCounter) (k : Int) : Option LockFlags :=
  c.counter[k]?.map ClientLockObj.toLockFlags

/-- The client has changed since `marker`. -/
def Marked (c : ClientLockCounter) (marker : Nat) (k : Int) : Prop :=
  ∃ m, c.changes[k]? = some m ∧ marker < m

/-- Marks are positive and not above the marker. -/
def MarksBounded (c : ClientLockCounter) : Prop :=
  ∀ (k : Int) (m : Nat), c.changes[k]? = some m → 0 < m ∧ m ≤ c.marker

theorem flags_eq_none {c : ClientLockCounter} {k : Int} :
    c.flags k = none ↔ c.counter[k]? = none := by
  simp [flags]

theorem mem_keys_counter {c : ClientLockCounter} {k : Int} :
    k ∈ c.counter.keys ↔ c.flags k ≠ none := by
  rw [Ne, flags_eq_none, Std.ExtTreeMap.mem_keys, ← Std.ExtTreeMap.isSome_getElem?_iff_mem,
    Option.isSome_iff_ne_none]

/-- A present record is read as it is. -/
theorem get_of_flags {c : ClientLockCounter} {k : Int} (h : c.flags k ≠ none) :
    (c.get k).2 = c ∧ some (c.get k).1.toLockFlags = c.flags k := by
  rw [Ne, flags_eq_none] at h
  obtain ⟨value, hvalue⟩ := Option.ne_none_iff_exists'.mp h
  simp [get, flags, hvalue]

@[simp] theorem mark_marker (c : ClientLockCounter) (k : Int) :
    (c.mark k).marker = c.marker + 1 := rfl

@[simp] theorem mark_needTotalSync (c : ClientLockCounter) (k : Int) :
    (c.mark k).needTotalSync = c.needTotalSync := rfl

@[simp] theorem flags_mark (c : ClientLockCounter) (k a : Int) :
    (c.mark k).flags a = c.flags a := rfl

theorem MarksBounded.mark {c : ClientLockCounter} (h : c.MarksBounded) (k : Int) :
    (c.mark k).MarksBounded := by
  intro a m hm
  simp only [ClientLockCounter.mark, IntMap.getElem?_insert] at hm
  rw [mark_marker]
  split at hm
  · rw [Option.some.injEq] at hm
    omega
  · have hbound := h a m hm
    omega

/-! ## The first loop of a push -/

/-- Every client is as before or newly marked and present, and no record is
removed. -/
structure Advances (c c' : ClientLockCounter) : Prop where
  marker_le : c.marker ≤ c'.marker
  needTotalSync : c'.needTotalSync = c.needTotalSync
  bounded : c.MarksBounded → c'.MarksBounded
  present : ∀ k, c.flags k ≠ none → c'.flags k ≠ none
  marked : ∀ k, (c'.changes[k]? = c.changes[k]? ∧ c'.flags k = c.flags k) ∨
    (∃ m, c'.changes[k]? = some m ∧ c.marker < m) ∧ c'.flags k ≠ none

theorem Advances.refl (c : ClientLockCounter) : Advances c c where
  marker_le := le_rfl
  needTotalSync := rfl
  bounded := id
  present := fun _ h => h
  marked := fun _ => Or.inl ⟨rfl, rfl⟩

theorem Advances.trans {c c₁ c₂ : ClientLockCounter} (h : Advances c c₁) (h' : Advances c₁ c₂) :
    Advances c c₂ where
  marker_le := h.marker_le.trans h'.marker_le
  needTotalSync := h'.needTotalSync.trans h.needTotalSync
  bounded := h'.bounded ∘ h.bounded
  present := fun k hk => h'.present k (h.present k hk)
  marked := by
    intro k
    rcases h'.marked k with ⟨hchanges, hflags⟩ | ⟨⟨m, hm, hlt⟩, hpresent⟩
    · rw [hchanges, hflags]
      exact h.marked k
    · exact Or.inr ⟨⟨m, hm, h.marker_le.trans_lt hlt⟩, hpresent⟩

/-- A turn of the first loop marks the client, or finds its record unchanged. -/
theorem pushRecord_cases (c : ClientLockCounter) (pair : Int × ClientLockObj) :
    c.pushRecord pair =
      mark { c with counter := c.counter.insert pair.1 { pair.2 with clientId := pair.1 } } pair.1 ∨
    (c.pushRecord pair = c ∧ c.flags pair.1 = some pair.2.toLockFlags) := by
  simp only [pushRecord]
  split
  case isTrue => exact Or.inl rfl
  case isFalse h =>
    push Not at h
    refine Or.inr ⟨rfl, ?_⟩
    cases hcc : c.counter[pair.1]? with
    | none => exact absurd (by simp [hcc]) h.1
    | some cc => simpa [flags, hcc] using h.2

theorem flags_pushRecord (c : ClientLockCounter) (pair : Int × ClientLockObj) (k : Int) :
    (c.pushRecord pair).flags k =
      if pair.1 = k then some pair.2.toLockFlags else c.flags k := by
  rcases c.pushRecord_cases pair with heq | ⟨heq, hflags⟩
  · rw [heq, flags_mark]
    simp only [flags, IntMap.getElem?_insert]
    split <;> rfl
  · rw [heq]
    split
    case isTrue hk => exact hk ▸ hflags
    case isFalse => rfl

theorem advances_pushRecord (c : ClientLockCounter) (pair : Int × ClientLockObj) :
    Advances c (c.pushRecord pair) := by
  have hflags := c.flags_pushRecord pair
  rcases c.pushRecord_cases pair with heq | ⟨heq, -⟩
  · exact {
      marker_le := by rw [heq]; exact Nat.le_succ _
      needTotalSync := by rw [heq]; rfl
      bounded := by
        intro h
        rw [heq]
        exact MarksBounded.mark (c := { c with counter := _ }) h pair.1
      present := by
        intro k hk
        rw [hflags]
        split
        · simp
        · exact hk
      marked := by
        intro k
        by_cases hk : pair.1 = k
        · subst hk
          refine Or.inr ⟨⟨c.marker + 1, ?_, Nat.lt_succ_self _⟩, by simp [hflags]⟩
          rw [heq]
          exact IntMap.getElem?_insert_self _ _ _
        · refine Or.inl ⟨?_, by rw [hflags, if_neg hk]⟩
          rw [heq]
          exact IntMap.getElem?_insert_of_ne _ hk _ }
  · rw [heq]
    exact Advances.refl c

/-- The first loop: the pushed records are there and the others are as before. -/
theorem foldl_pushRecord (pairs : List (Int × ClientLockObj))
    (hdistinct : pairs.Pairwise fun a b => a.1 ≠ b.1) (c : ClientLockCounter) :
    Advances c (pairs.foldl pushRecord c) ∧
      (∀ pair ∈ pairs, (pairs.foldl pushRecord c).flags pair.1 = some pair.2.toLockFlags) ∧
      ∀ k, (∀ pair ∈ pairs, pair.1 ≠ k) → (pairs.foldl pushRecord c).flags k = c.flags k := by
  induction pairs generalizing c with
  | nil => exact ⟨Advances.refl c, by simp, fun _ _ => rfl⟩
  | cons pair pairs ih =>
      rw [List.pairwise_cons] at hdistinct
      obtain ⟨hadvances, hpushed, hother⟩ := ih hdistinct.2 (c.pushRecord pair)
      refine ⟨(c.advances_pushRecord pair).trans hadvances, ?_, ?_⟩
      · intro p hp
        rcases List.mem_cons.mp hp with rfl | hp
        · rw [List.foldl_cons, hother _ fun q hq => (hdistinct.1 q hq).symm, flags_pushRecord,
            if_pos rfl]
        · exact hpushed p hp
      · intro k hk
        rw [List.foldl_cons, hother k fun q hq => hk q (List.mem_cons_of_mem pair hq),
          flags_pushRecord, if_neg (hk pair List.mem_cons_self)]

/-! ## The second loop -/

theorem eraseMissing_of_forall {clientLocks : IntMap ClientLockObj} {junk : Int} {ks : List Int}
    (h : ∀ k ∈ ks, clientLocks[k]? ≠ none) (c : ClientLockCounter) :
    eraseMissing clientLocks junk ks c = c := by
  induction ks with
  | nil => rfl
  | cons k ks ih =>
      obtain ⟨value, hvalue⟩ := Option.ne_none_iff_exists'.mp (h k List.mem_cons_self)
      rw [eraseMissing, hvalue]
      exact ih fun k' hk' => h k' (List.mem_cons_of_mem k hk')

/-- What the second loop leaves: keys that were not pushed are gone. -/
theorem eraseMissing_spec (clientLocks : IntMap ClientLockObj) (junk : Int) (ks : List Int)
    (c : ClientLockCounter) :
    (∀ k, (eraseMissing clientLocks junk ks c).flags k =
      if k ∈ ks ∧ clientLocks[k]? = none then none else c.flags k) ∧
    c.marker ≤ (eraseMissing clientLocks junk ks c).marker ∧
    (c.MarksBounded → (eraseMissing clientLocks junk ks c).MarksBounded) ∧
    ((eraseMissing clientLocks junk ks c).needTotalSync = true ↔
      c.needTotalSync = true ∨ ∃ k ∈ ks, clientLocks[k]? = none) := by
  induction ks generalizing c with
  | nil => simp [eraseMissing]
  | cons k ks ih =>
      cases hk : clientLocks[k]? with
      | some value =>
          obtain ⟨hflags, hmarker, hbounded, htotal⟩ := ih c
          simp only [eraseMissing, hk]
          refine ⟨fun k' => ?_, hmarker, hbounded, ?_⟩
          · rw [hflags]
            by_cases hk' : k' = k
            · subst hk'
              simp [hk]
            · simp [hk']
          · simp only [htotal, List.mem_cons, exists_eq_or_imp, hk, reduceCtorEq, false_or]
      | none =>
          obtain ⟨hflags, hmarker, hbounded, htotal⟩ := ih
            (mark { c with counter := c.counter.erase k, needTotalSync := true } (ks.headD junk))
          simp only [eraseMissing, hk]
          refine ⟨fun k' => ?_, (Nat.le_succ _).trans hmarker, fun h => hbounded ?_, ?_⟩
          · rw [hflags]
            by_cases hk' : k' = k
            · subst hk'
              simp [hk, flags, mark]
            · simp [flags, mark, hk', Ne.symm hk']
          · exact MarksBounded.mark (c := { c with counter := _, needTotalSync := true }) h _
          · simp only [htotal, mark_needTotalSync, List.mem_cons, exists_eq_or_imp, hk, true_or,
              or_true]

/-- **What a push does.**  The records are those pushed; either one was removed
and all of them are to be written, or every client is as before or marked. -/
theorem push_cases (c : ClientLockCounter) (clientLocks : IntMap ClientLockObj) (junk : Int) :
    (∀ k, (c.push clientLocks junk).flags k = clientLocks[k]?.map ClientLockObj.toLockFlags) ∧
    c.marker ≤ (c.push clientLocks junk).marker ∧
    (c.MarksBounded → (c.push clientLocks junk).MarksBounded) ∧
    ((∃ k, c.flags k ≠ none ∧ clientLocks[k]? = none) ∧
        (c.push clientLocks junk).needTotalSync = true ∨
      (∀ k, c.flags k ≠ none → clientLocks[k]? ≠ none) ∧
        Advances c (c.push clientLocks junk)) := by
  have hdistinct : clientLocks.toList.Pairwise fun a b => a.1 ≠ b.1 :=
    Std.ExtTreeMap.distinct_keys_toList.imp fun h heq => h (by simp [heq])
  obtain ⟨hadvances, hpushed, hother⟩ := foldl_pushRecord clientLocks.toList hdistinct c
  generalize hc₁ : clientLocks.toList.foldl pushRecord c = c₁ at hadvances hpushed hother
  have hsome : ∀ k value, clientLocks[k]? = some value → c₁.flags k = some value.toLockFlags :=
    fun k value hvalue =>
      hpushed (k, value) (Std.ExtTreeMap.mem_toList_iff_getElem?_eq_some.mpr hvalue)
  have hnone : ∀ k, clientLocks[k]? = none → c₁.flags k = c.flags k := by
    intro k hk
    refine hother k fun pair hpair heq => ?_
    rw [← heq, Std.ExtTreeMap.mem_toList_iff_getElem?_eq_some.mp hpair] at hk
    exact absurd hk (by simp)
  -- first the new locks are entered, then the missing ones erased
  obtain ⟨hflags, hmarker, hbounded, htotal⟩ :=
    eraseMissing_spec clientLocks junk c₁.counter.keys c₁
  simp only [push, hc₁]
  refine ⟨fun k => ?_, hadvances.marker_le.trans hmarker, hbounded ∘ hadvances.bounded, ?_⟩
  · refine (hflags k).trans ?_
    cases hk : clientLocks[k]? with
    | some value => simpa [hk] using hsome k value hk
    | none =>
        split
        case isTrue => rfl
        case isFalse hkeys =>
          rw [mem_keys_counter] at hkeys
          simpa [hk] using hkeys
  · by_cases hremoved : ∃ k, c.flags k ≠ none ∧ clientLocks[k]? = none
    · refine Or.inl ⟨hremoved, htotal.mpr (Or.inr ?_)⟩
      obtain ⟨k, hpresent, hk⟩ := hremoved
      exact ⟨k, mem_keys_counter.mpr (by rwa [hnone k hk]), hk⟩
    · push Not at hremoved
      refine Or.inr ⟨hremoved, ?_⟩
      have hkeys : ∀ k ∈ c₁.counter.keys, clientLocks[k]? ≠ none := by
        intro k hk hmissing
        rw [mem_keys_counter, hnone k hmissing] at hk
        exact hremoved k hk hmissing
      rw [eraseMissing_of_forall hkeys]
      exact { hadvances with }

end ClientLockCounter
end VoipBill
