import VoipBill.Model.ClientLockCounter
import VoipBill.Model.Common
import VoipBill.Model.LoadedTables
import VoipBill.Model.Repository
import VoipBill.Sync.BlackLists
import VoipBill.Sync.ClientLocks

/-!
# From limits to wanted lists

Three components decide which numbers and trunks are to be blocked:

* `ActiveCounter::load` collects the numbers and trunks in force by account;
* `ThreadClientLock::run` compares every active account with its limits and
  pushes the locks to the counter of `Model.ClientLockCounter`;
* `ThreadBlacklistCalc::run` turns the locks into the four wanted lists.

Each has a specification of its own, and `wanted_iff_limits` composes them: what
the four lists hold, in terms of the rows of the database and the limits.
-/

namespace VoipBill

open Lib

/-- A fold whose steps add to a set adds what any of its steps adds. -/
theorem foldl_iff_exists {σ α : Type} {f : σ → α → σ} {P : σ → Prop} {Q : α → Prop}
    (h : ∀ s a, P (f s a) ↔ P s ∨ Q a) (as : List α) (s : σ) :
    P (as.foldl f s) ↔ P s ∨ ∃ a ∈ as, Q a := by
  induction as generalizing s with
  | nil => simp
  | cons a as ih =>
      rw [List.foldl_cons, ih, h, List.exists_mem_cons_iff, or_assoc]

/-! ## Numbers and trunks in force -/

namespace NumberRow

def asBlacklistNumber (number : NumberRow) : Phone :=
  if number.techNumber ≠ [] then number.techNumber else number.did

/-- A number with the prefix 7800 that does not end there. -/
def is7800 (number : NumberRow) : Bool :=
  number.did.take 4 == ['7', '8', '0', '0'] && decide (4 < number.did.length)

end NumberRow

structure ActiveCounter where
  activeNumbers : Finset Int
  activeTrunks : Finset Int
  activeClients : Finset Int
  clientNumbers : IntMap (IntMap NumberRow)
  clientTrunks : IntMap (IntMap ServiceTrunk)

namespace ActiveCounter

def empty : ActiveCounter := ⟨∅, ∅, ∅, ∅, ∅⟩

def numberInForce (now : Int) (number : NumberRow) : Bool :=
  !(decide (number.activationDt > now) || decide (number.expireDt < now) || !number.isLocal)

def trunkInForce (now : Int) (trunk : ServiceTrunk) : Bool :=
  !(decide (trunk.activationDt > now) || decide (trunk.expireDt < now))

/-- The maps by account; a row does not replace one with the same id. -/
def insertRow {ρ : Type} (rows : IntMap (IntMap ρ)) (client id : Int) (row : ρ) :
    IntMap (IntMap ρ) :=
  rows.insert client ((rows[client]?.getD ∅).insertIfNew id row)

def addNumber (now : Int) (counter : ActiveCounter) (number : NumberRow) : ActiveCounter :=
  if numberInForce now number then
    { counter with
      activeNumbers := insert number.id counter.activeNumbers
      activeClients := insert number.clientAccountId counter.activeClients
      clientNumbers :=
        insertRow counter.clientNumbers number.clientAccountId number.id number }
  else
    counter

def addTrunk (now : Int) (counter : ActiveCounter) (trunk : ServiceTrunk) : ActiveCounter :=
  if trunkInForce now trunk then
    { counter with
      activeTrunks := insert trunk.id counter.activeTrunks
      activeClients := insert trunk.clientAccountId counter.activeClients
      clientTrunks := insertRow counter.clientTrunks trunk.clientAccountId trunk.id trunk }
  else
    counter

def load (now : Int) (serviceNumbers : List NumberRow) (serviceTrunks : List ServiceTrunk) :
    ActiveCounter :=
  serviceTrunks.foldl (addTrunk now) (serviceNumbers.foldl (addNumber now) empty)

def numbers (counter : ActiveCounter) (client : Int) : List NumberRow :=
  (counter.clientNumbers[client]?.getD ∅).toList.map Prod.snd

def trunks (counter : ActiveCounter) (client : Int) : List ServiceTrunk :=
  (counter.clientTrunks[client]?.getD ∅).toList.map Prod.snd

/-! ### What is loaded -/

theorem getElem?_insertRow {ρ : Type} (rows : IntMap (IntMap ρ)) (client id : Int) (row : ρ)
    (c i : Int) :
    ((insertRow rows client id row)[c]?.getD ∅)[i]? =
      (rows[c]?.getD ∅)[i]?.or (if client = c ∧ id = i then some row else none) := by
  rw [insertRow, IntMap.getElem?_insert]
  by_cases hc : client = c
  · subst hc
    rw [if_pos rfl, Option.getD_some, Std.ExtTreeMap.getElem?_insertIfNew]
    by_cases hi : id = i
    · subst hi
      cases hrow : (rows[client]?.getD ∅)[id]? with
      | none =>
          have hmem : id ∉ rows[client]?.getD ∅ := by
            rw [← Std.ExtTreeMap.isSome_getElem?_iff_mem, hrow]
            simp
          simp [hmem]
      | some value =>
          have hmem : id ∈ rows[client]?.getD ∅ := by
            rw [← Std.ExtTreeMap.isSome_getElem?_iff_mem, hrow]
            rfl
          simp [hmem]
    · simp [hi]
  · simp [hc]

/-- Insert the rows in force from the left: the first one of an account with its
id is kept. -/
theorem getElem?_foldl_insertRow {ρ : Type} (inForce : ρ → Bool) (client id : ρ → Int)
    (table : List ρ) (rows : IntMap (IntMap ρ)) (c i : Int) :
    ((table.foldl (fun m row => if inForce row then insertRow m (client row) (id row) row else m)
        rows)[c]?.getD ∅)[i]? =
      (rows[c]?.getD ∅)[i]?.or
        (table.find? fun row => inForce row && (client row == c && id row == i)) := by
  induction table generalizing rows with
  | nil => simp
  | cons row table ih =>
      rw [List.foldl_cons, ih, List.find?_cons]
      by_cases hforce : inForce row
      · rw [if_pos hforce, getElem?_insertRow]
        by_cases hid : client row = c ∧ id row = i
        · simp [hforce, hid]
        · have hfalse : (client row == c && id row == i) = false := by
            rw [Bool.and_eq_false_iff, beq_eq_false_iff_ne, beq_eq_false_iff_ne]
            exact not_and_or.mp hid
          rw [if_neg hid, Option.or_none, hforce, hfalse]
          rfl
      · rw [if_neg hforce]
        simp [hforce]

theorem clientNumbers_foldl_addNumber (now : Int) (table : List NumberRow)
    (counter : ActiveCounter) :
    (table.foldl (addNumber now) counter).clientNumbers =
      table.foldl (fun m row => if numberInForce now row then
        insertRow m row.clientAccountId row.id row else m) counter.clientNumbers := by
  induction table generalizing counter with
  | nil => rfl
  | cons row table ih =>
      rw [List.foldl_cons, List.foldl_cons, ih, addNumber]
      by_cases hforce : numberInForce now row
      · rw [if_pos hforce, if_pos hforce]
      · rw [if_neg hforce, if_neg hforce]

theorem clientTrunks_foldl_addTrunk (now : Int) (table : List ServiceTrunk)
    (counter : ActiveCounter) :
    (table.foldl (addTrunk now) counter).clientTrunks =
      table.foldl (fun m row => if trunkInForce now row then
        insertRow m row.clientAccountId row.id row else m) counter.clientTrunks := by
  induction table generalizing counter with
  | nil => rfl
  | cons row table ih =>
      rw [List.foldl_cons, List.foldl_cons, ih, addTrunk]
      by_cases hforce : trunkInForce now row
      · rw [if_pos hforce, if_pos hforce]
      · rw [if_neg hforce, if_neg hforce]

/-- The trunks are inserted without touching the numbers, and the other way round. -/
theorem clientNumbers_foldl_addTrunk (now : Int) (table : List ServiceTrunk)
    (counter : ActiveCounter) :
    (table.foldl (addTrunk now) counter).clientNumbers = counter.clientNumbers := by
  induction table generalizing counter with
  | nil => rfl
  | cons row table ih =>
      rw [List.foldl_cons, ih, addTrunk]
      split <;> rfl

theorem clientTrunks_foldl_addNumber (now : Int) (table : List NumberRow)
    (counter : ActiveCounter) :
    (table.foldl (addNumber now) counter).clientTrunks = counter.clientTrunks := by
  induction table generalizing counter with
  | nil => rfl
  | cons row table ih =>
      rw [List.foldl_cons, ih, addNumber]
      split <;> rfl

/-- The first row in force of an account with its id. -/
def FirstInForce {ρ : Type} (inForce : ρ → Bool) (client id : ρ → Int) (table : List ρ) (c : Int)
    (row : ρ) : Prop :=
  (table.find? fun r => inForce r && (client r == c && id r == id row)) = some row

/-- The rows that are collected for an account. -/
theorem mem_rows_iff {ρ : Type} (inForce : ρ → Bool) (client id : ρ → Int) (table : List ρ)
    (c : Int) (row : ρ) :
    row ∈ ((table.foldl (fun m r => if inForce r then insertRow m (client r) (id r) r else m)
        (∅ : IntMap (IntMap ρ)))[c]?.getD ∅).toList.map Prod.snd ↔
      FirstInForce inForce client id table c row := by
  have hlookup := fun i => getElem?_foldl_insertRow inForce client id table ∅ c i
  simp only [List.mem_map, Prod.exists, exists_eq_right,
    Std.ExtTreeMap.mem_toList_iff_getElem?_eq_some, hlookup]
  constructor
  · rintro ⟨i, hi⟩
    have hfind : (table.find? fun r => inForce r && (client r == c && id r == i)) = some row := by
      simpa using hi
    have hid : id row = i := by
      have hrow := List.find?_some hfind
      simp only [Bool.and_eq_true, beq_iff_eq] at hrow
      exact hrow.2.2
    rw [FirstInForce, hid]
    exact hfind
  · intro hfind
    rw [FirstInForce] at hfind
    refine ⟨id row, ?_⟩
    simpa using hfind

/-- A number of the account is in force. -/
def ActiveNumber (now : Int) (serviceNumbers : List NumberRow) (client : Int)
    (number : NumberRow) : Prop :=
  FirstInForce (numberInForce now) (fun row => row.clientAccountId) (fun row => row.id)
    serviceNumbers client number

def ActiveTrunk (now : Int) (serviceTrunks : List ServiceTrunk) (client : Int)
    (trunk : ServiceTrunk) : Prop :=
  FirstInForce (trunkInForce now) (fun row => row.clientAccountId) (fun row => row.id)
    serviceTrunks client trunk

theorem mem_numbers_load {now : Int} {serviceNumbers : List NumberRow}
    {serviceTrunks : List ServiceTrunk} {client : Int} {number : NumberRow} :
    number ∈ (load now serviceNumbers serviceTrunks).numbers client ↔
      ActiveNumber now serviceNumbers client number := by
  rw [numbers, load, clientNumbers_foldl_addTrunk, clientNumbers_foldl_addNumber]
  exact mem_rows_iff _ _ _ serviceNumbers client number

theorem mem_trunks_load {now : Int} {serviceNumbers : List NumberRow}
    {serviceTrunks : List ServiceTrunk} {client : Int} {trunk : ServiceTrunk} :
    trunk ∈ (load now serviceNumbers serviceTrunks).trunks client ↔
      ActiveTrunk now serviceTrunks client trunk := by
  rw [trunks, load, clientTrunks_foldl_addTrunk, clientTrunks_foldl_addNumber]
  exact mem_rows_iff _ _ _ serviceTrunks client trunk

/-- The active accounts are those with a number or a trunk in force. -/
theorem mem_activeClients_load {now : Int} {serviceNumbers : List NumberRow}
    {serviceTrunks : List ServiceTrunk} {client : Int} :
    client ∈ (load now serviceNumbers serviceTrunks).activeClients ↔
      (∃ row ∈ serviceNumbers, numberInForce now row ∧ row.clientAccountId = client) ∨
        ∃ row ∈ serviceTrunks, trunkInForce now row ∧ row.clientAccountId = client := by
  have hnumber : ∀ (counter : ActiveCounter) (row : NumberRow),
      client ∈ (addNumber now counter row).activeClients ↔
        client ∈ counter.activeClients ∨ numberInForce now row ∧ row.clientAccountId = client := by
    intro counter row
    rw [addNumber]
    by_cases hforce : numberInForce now row
    · simp [hforce, or_comm, eq_comm]
    · simp [hforce]
  have htrunk : ∀ (counter : ActiveCounter) (row : ServiceTrunk),
      client ∈ (addTrunk now counter row).activeClients ↔
        client ∈ counter.activeClients ∨ trunkInForce now row ∧ row.clientAccountId = client := by
    intro counter row
    rw [addTrunk]
    by_cases hforce : trunkInForce now row
    · simp [hforce, or_comm, eq_comm]
    · simp [hforce]
  have hnumbers := foldl_iff_exists (P := fun c => client ∈ c.activeClients) hnumber
    serviceNumbers empty
  have htrunks := foldl_iff_exists (P := fun c => client ∈ c.activeClients) htrunk
    serviceTrunks (serviceNumbers.foldl (addNumber now) empty)
  rw [load, htrunks, hnumbers]
  simp [empty]

end ActiveCounter

/-! ## Locks of accounts -/

/-- What an account has spent in the other regions. -/
structure GlobalCounters where
  clientId : Int := 0
  sum : ℚ := 0
  sumDay : ℚ := 0
  sumMnDay : ℚ := 0

def getVatRate (client : Client) : ℚ :=
  if client.priceIncludeVat then 0 else client.effectiveVatRate / 100

/-- A counter of the day counts on its day only. -/
def StatsAccount.today (stats : StatsAccount) (now : Int) (sum : ℚ) : ℚ :=
  if |stats.amountDay - getTday now 0| < 43200 then sum else 0

/-- What a run of `ThreadClientLock` reads. -/
structure LockRun where
  now : Int
  conf : Conf
  data : DataContainer
  activeCounter : ActiveCounter
  globalCounters : Int → Option GlobalCounters
  statsAccount : IntMap StatsAccount

namespace LockRun

variable (r : LockRun) (client : Client)

/-- What is spent here and in the other regions: of the balance. -/
def spentBalanceSum : ℚ :=
  (match r.statsAccount[client.id]? with
    | some stats => stats.sum * (1 + getVatRate client)
    | none => 0) +
  (match r.globalCounters client.id with
    | some counters => counters.sum * (1 + getVatRate client)
    | none => 0)

/-- Of the day. -/
def spentDaySum : ℚ :=
  (match r.statsAccount[client.id]? with
    | some stats => stats.today r.now (stats.sumDay * (1 + getVatRate client))
    | none => 0) +
  (match r.globalCounters client.id with
    | some counters => counters.sumDay * (1 + getVatRate client)
    | none => 0)

/-- Of the day, on international calls. -/
def spentDayMNSum : ℚ :=
  (match r.statsAccount[client.id]? with
    | some stats => stats.today r.now (stats.sumMnDay * (1 + getVatRate client))
    | none => 0) +
  (match r.globalCounters client.id with
    | some counters => counters.sumMnDay * (1 + getVatRate client)
    | none => 0)

def autoLockFinance : Bool :=
  match r.data.instanceSettings r.conf.instanceId with
  | some settings => settings.autoLockFinance
  | none => false

/-- The result, and what is set of `need_lock_finance`, `need_lock_overran` and
`need_lock_mn`. -/
def needLockLocal (clientAccountId : Int) : Bool × Bool × Bool × Bool :=
  match r.data.client clientAccountId with
  | none => (false, false, false, false)
  | some client =>
      let finance := client.isConsumedCreditLimit (r.spentBalanceSum client) && r.autoLockFinance
      let overran := client.isConsumedDailyLimit (r.spentDaySum client)
      let mn := client.isConsumedDailyMNLimit (r.spentDayMNSum client)
      (client.disabled || finance || overran, finance, overran, mn)

def needLockGlobal (clientAccountId : Int) : Bool :=
  match r.data.client clientAccountId with
  | none => false
  | some client => client.isBlocked

/-- The lock of an account, if it needs one. -/
def lockOf (clientAccountId : Int) : Option ClientLockObj :=
  let (locked, finance, overran, mn) := r.needLockLocal clientAccountId
  let lockedGlobal := r.needLockGlobal clientAccountId
  if locked || lockedGlobal || overran || finance || mn then
    some {
      clientId := clientAccountId
      disabledLocal := locked
      isMnOverran := mn
      disabledGlobal := lockedGlobal
      isOverran := overran
      isFinanceBlock := finance }
  else
    none

/-- The map that `run` pushes. -/
def clientLocks : IntMap ClientLockObj :=
  (r.activeCounter.activeClients.sort (· ≤ ·)).foldl
    (fun locks clientAccountId =>
      match r.lockOf clientAccountId with
      | some lock => locks.insert clientAccountId lock
      | none => locks) ∅

theorem lockOf_eq (c : Int) :
    r.lockOf c =
      if ((r.needLockLocal c).1 || r.needLockGlobal c || (r.needLockLocal c).2.2.1 ||
          (r.needLockLocal c).2.1 || (r.needLockLocal c).2.2.2) = true then
        some {
          clientId := c
          disabledLocal := (r.needLockLocal c).1
          isMnOverran := (r.needLockLocal c).2.2.2
          disabledGlobal := r.needLockGlobal c
          isOverran := (r.needLockLocal c).2.2.1
          isFinanceBlock := (r.needLockLocal c).2.1 }
      else none := rfl

theorem getElem?_clientLocks (c : Int) :
    r.clientLocks[c]? = if c ∈ r.activeCounter.activeClients then r.lockOf c else none := by
  have hfold : ∀ (cs : List Int) (locks : IntMap ClientLockObj),
      (cs.foldl (fun locks clientAccountId =>
        match r.lockOf clientAccountId with
        | some lock => locks.insert clientAccountId lock
        | none => locks) locks)[c]? =
      if c ∈ cs then (r.lockOf c).or locks[c]? else locks[c]? := by
    intro cs
    induction cs with
    | nil => simp
    | cons d cs ih =>
        intro locks
        rw [List.foldl_cons, ih]
        cases hlock : r.lockOf d with
        | none =>
            by_cases hd : c = d
            · subst hd
              simp [hlock]
            · simp [hd]
        | some lock =>
            by_cases hd : c = d
            · subst hd
              simp [hlock]
            · simp [hd, Ne.symm hd]
  rw [clientLocks, hfold]
  simp

end LockRun

/-! ## The wanted lists -/

structure WantedLists where
  wantedLocal : Finset Phone := ∅
  wantedGlobal : Finset Phone := ∅
  wantedTrunk : Finset Phone := ∅
  wantedAntiFraudDisable : Finset Phone := ∅

/-- What a run of `ThreadBlacklistCalc` reads besides the locks. -/
structure CalcRun where
  data : DataContainer
  activeCounter : ActiveCounter

namespace CalcRun

variable (r : CalcRun)

/-- The turn of the loop over the numbers of a locked account. -/
def addNumber (lock : ClientLockObj) (wanted : WantedLists) (number : NumberRow) : WantedLists :=
  let wanted :=
    if lock.disabledLocal then
      if !number.is7800 then
        { wanted with wantedLocal := insert number.did wanted.wantedLocal }
      else
        { wanted with wantedGlobal := insert number.asBlacklistNumber wanted.wantedGlobal }
    else
      wanted
  if lock.disabledGlobal then
    { wanted with wantedGlobal := insert number.asBlacklistNumber wanted.wantedGlobal }
  else
    wanted

/-- The turn of the two loops over the trunks of a locked account: the first one
takes only trunks without authorisation by number. -/
def addTrunk (onlyByTrunk : Bool) (wanted : WantedLists) (serviceTrunk : ServiceTrunk) :
    WantedLists :=
  match r.data.trunk serviceTrunk.trunkId with
  | some trunk =>
      if onlyByTrunk && trunk.authByNumber then wanted
      else { wanted with wantedTrunk := insert trunk.trunkName wanted.wantedTrunk }
  | none => wanted

def addLock (wanted : WantedLists) (lock : ClientLockObj) : WantedLists :=
  let wanted :=
    if lock.disabledLocal || lock.disabledGlobal then
      (r.activeCounter.numbers lock.clientId).foldl (addNumber lock) wanted
    else wanted
  let wanted :=
    if lock.isFinanceBlock then
      (r.activeCounter.trunks lock.clientId).foldl (r.addTrunk true) wanted
    else wanted
  if lock.disabledGlobal then
    (r.activeCounter.trunks lock.clientId).foldl (r.addTrunk false) wanted
  else wanted

def addAntiFraud (wanted : WantedLists) (clientAccountId : Int) : WantedLists :=
  match r.data.client clientAccountId with
  | none => wanted
  | some client =>
      if !client.antiFraudDisabled then wanted
      else
        (r.activeCounter.numbers client.id).foldl
          (fun wanted number => { wanted with
            wantedAntiFraudDisable :=
              insert number.asBlacklistNumber wanted.wantedAntiFraudDisable }) wanted

/-- The four lists that `run` pushes. -/
def wantedLists (locks : List ClientLockObj) : WantedLists :=
  (r.activeCounter.activeClients.sort (· ≤ ·)).foldl r.addAntiFraud (locks.foldl r.addLock {})

/-- What the loops of a lock add to one of the lists. -/
theorem addLock_iff {P : WantedLists → Prop} {QN : NumberRow → Prop}
    {QT : Bool → ServiceTrunk → Prop} {lock : ClientLockObj}
    (hnumber : ∀ w number, P (addNumber lock w number) ↔ P w ∨ QN number)
    (htrunk : ∀ onlyByTrunk w trunk, P (r.addTrunk onlyByTrunk w trunk) ↔
      P w ∨ QT onlyByTrunk trunk) (w : WantedLists) :
    P (r.addLock w lock) ↔ P w ∨
      ((lock.disabledLocal ∨ lock.disabledGlobal) ∧
          (∃ number ∈ r.activeCounter.numbers lock.clientId, QN number) ∨
        lock.isFinanceBlock ∧ (∃ trunk ∈ r.activeCounter.trunks lock.clientId, QT true trunk) ∨
        lock.disabledGlobal ∧ ∃ trunk ∈ r.activeCounter.trunks lock.clientId, QT false trunk) := by
  have hnumbers := foldl_iff_exists hnumber (r.activeCounter.numbers lock.clientId)
  have htrunks := fun onlyByTrunk =>
    foldl_iff_exists (htrunk onlyByTrunk) (r.activeCounter.trunks lock.clientId)
  obtain ⟨⟨disabledLocal, disabledGlobal, isFinanceBlock, isOverran, isMnOverran⟩, clientId⟩ := lock
  cases disabledLocal <;> cases disabledGlobal <;> cases isFinanceBlock <;>
    simp [addLock, hnumbers, htrunks, or_assoc]

theorem mem_wantedLocal_addLock (w : WantedLists) (lock : ClientLockObj) (x : Phone) :
    x ∈ (r.addLock w lock).wantedLocal ↔ x ∈ w.wantedLocal ∨
      lock.disabledLocal ∧ ∃ number ∈ r.activeCounter.numbers lock.clientId,
        ¬number.is7800 ∧ number.did = x := by
  have hnumber : ∀ (w : WantedLists) (number : NumberRow),
      x ∈ (addNumber lock w number).wantedLocal ↔
        x ∈ w.wantedLocal ∨ lock.disabledLocal ∧ ¬number.is7800 ∧ number.did = x := by
    intro w number
    cases hlocal : lock.disabledLocal <;> cases h7800 : number.is7800 <;>
      cases hglobal : lock.disabledGlobal <;>
      simp [addNumber, hlocal, h7800, hglobal, or_comm, eq_comm]
  have htrunk : ∀ (onlyByTrunk : Bool) (w : WantedLists) (trunk : ServiceTrunk),
      x ∈ (r.addTrunk onlyByTrunk w trunk).wantedLocal ↔ x ∈ w.wantedLocal ∨ False := by
    intro onlyByTrunk w trunk
    rw [addTrunk]
    split
    · split <;> simp
    · simp
  rw [r.addLock_iff (P := fun w => x ∈ w.wantedLocal) hnumber htrunk]
  cases hlocal : lock.disabledLocal <;> simp

theorem mem_wantedGlobal_addLock (w : WantedLists) (lock : ClientLockObj) (x : Phone) :
    x ∈ (r.addLock w lock).wantedGlobal ↔ x ∈ w.wantedGlobal ∨
      ∃ number ∈ r.activeCounter.numbers lock.clientId, number.asBlacklistNumber = x ∧
        (lock.disabledGlobal ∨ lock.disabledLocal ∧ number.is7800) := by
  have hnumber : ∀ (w : WantedLists) (number : NumberRow),
      x ∈ (addNumber lock w number).wantedGlobal ↔
        x ∈ w.wantedGlobal ∨ number.asBlacklistNumber = x ∧
          (lock.disabledGlobal ∨ lock.disabledLocal ∧ number.is7800) := by
    intro w number
    cases hlocal : lock.disabledLocal <;> cases h7800 : number.is7800 <;>
      cases hglobal : lock.disabledGlobal <;>
      simp [addNumber, hlocal, h7800, hglobal, or_comm, eq_comm]
  have htrunk : ∀ (onlyByTrunk : Bool) (w : WantedLists) (trunk : ServiceTrunk),
      x ∈ (r.addTrunk onlyByTrunk w trunk).wantedGlobal ↔ x ∈ w.wantedGlobal ∨ False := by
    intro onlyByTrunk w trunk
    rw [addTrunk]
    split
    · split <;> simp
    · simp
  rw [r.addLock_iff (P := fun w => x ∈ w.wantedGlobal) hnumber htrunk]
  cases hlocal : lock.disabledLocal <;> cases hglobal : lock.disabledGlobal <;> simp

theorem mem_wantedTrunk_addLock (w : WantedLists) (lock : ClientLockObj) (x : Phone) :
    x ∈ (r.addLock w lock).wantedTrunk ↔ x ∈ w.wantedTrunk ∨
      ∃ serviceTrunk ∈ r.activeCounter.trunks lock.clientId,
        ∃ trunk, r.data.trunk serviceTrunk.trunkId = some trunk ∧ trunk.trunkName = x ∧
          (lock.disabledGlobal ∨ lock.isFinanceBlock ∧ ¬trunk.authByNumber) := by
  -- the numbers do not concern the trunks
  have hnumber : ∀ (w : WantedLists) (number : NumberRow),
      x ∈ (addNumber lock w number).wantedTrunk ↔ x ∈ w.wantedTrunk ∨ False := by
    intro w number
    cases hlocal : lock.disabledLocal <;> cases h7800 : number.is7800 <;>
      cases hglobal : lock.disabledGlobal <;>
      simp [addNumber, hlocal, h7800, hglobal]
  have htrunk : ∀ (onlyByTrunk : Bool) (w : WantedLists) (serviceTrunk : ServiceTrunk),
      x ∈ (r.addTrunk onlyByTrunk w serviceTrunk).wantedTrunk ↔
        x ∈ w.wantedTrunk ∨ ∃ trunk, r.data.trunk serviceTrunk.trunkId = some trunk ∧
          trunk.trunkName = x ∧ ¬(onlyByTrunk ∧ trunk.authByNumber) := by
    intro onlyByTrunk w serviceTrunk
    rw [addTrunk]
    split
    case h_1 trunk hfound =>
      simp only [hfound, Option.some.injEq, exists_eq_left']
      by_cases hskip : (onlyByTrunk && trunk.authByNumber) = true
      · rw [if_pos hskip]
        rw [Bool.and_eq_true] at hskip
        simp [hskip]
      · rw [if_neg hskip, Finset.mem_insert, eq_comm, or_comm]
        rw [Bool.and_eq_true] at hskip
        simp [hskip]
    case h_2 hfound => simp [hfound]
  rw [r.addLock_iff (P := fun w => x ∈ w.wantedTrunk) hnumber htrunk]
  cases hfinance : lock.isFinanceBlock <;> cases hglobal : lock.disabledGlobal
  · simp
  · simp
  · simp
  · -- the trunks of the first loop are among those of the second
    simp only [Bool.false_eq_true, and_false, exists_false, false_or, true_and, false_and,
      not_false_eq_true, and_true, true_or]
    refine or_congr_right ⟨?_, Or.inr⟩
    rintro (⟨serviceTrunk, hmem, trunk, hfound, hname, -⟩ | h)
    · exact ⟨serviceTrunk, hmem, trunk, hfound, hname⟩
    · exact h

theorem mem_wantedAntiFraudDisable_addLock (w : WantedLists) (lock : ClientLockObj) (x : Phone) :
    x ∈ (r.addLock w lock).wantedAntiFraudDisable ↔ x ∈ w.wantedAntiFraudDisable ∨ False := by
  have hnumber : ∀ (w : WantedLists) (number : NumberRow),
      x ∈ (addNumber lock w number).wantedAntiFraudDisable ↔
        x ∈ w.wantedAntiFraudDisable ∨ False := by
    intro w number
    cases hlocal : lock.disabledLocal <;> cases h7800 : number.is7800 <;>
      cases hglobal : lock.disabledGlobal <;>
      simp [addNumber, hlocal, h7800, hglobal]
  have htrunk : ∀ (onlyByTrunk : Bool) (w : WantedLists) (trunk : ServiceTrunk),
      x ∈ (r.addTrunk onlyByTrunk w trunk).wantedAntiFraudDisable ↔
        x ∈ w.wantedAntiFraudDisable ∨ False := by
    intro onlyByTrunk w trunk
    rw [addTrunk]
    split
    · split <;> simp
    · simp
  rw [r.addLock_iff (P := fun w => x ∈ w.wantedAntiFraudDisable) hnumber htrunk]
  simp

/-- Accounts without fraud protection do not touch the lists of the locks. -/
theorem addAntiFraud_lists (w : WantedLists) (c : Int) :
    (r.addAntiFraud w c).wantedLocal = w.wantedLocal ∧
      (r.addAntiFraud w c).wantedGlobal = w.wantedGlobal ∧
      (r.addAntiFraud w c).wantedTrunk = w.wantedTrunk := by
  have hfold : ∀ (numbers : List NumberRow) (w : WantedLists),
      (numbers.foldl (fun wanted number => { wanted with
        wantedAntiFraudDisable :=
          insert number.asBlacklistNumber wanted.wantedAntiFraudDisable }) w).wantedLocal =
        w.wantedLocal ∧
      (numbers.foldl (fun wanted number => { wanted with
        wantedAntiFraudDisable :=
          insert number.asBlacklistNumber wanted.wantedAntiFraudDisable }) w).wantedGlobal =
        w.wantedGlobal ∧
      (numbers.foldl (fun wanted number => { wanted with
        wantedAntiFraudDisable :=
          insert number.asBlacklistNumber wanted.wantedAntiFraudDisable }) w).wantedTrunk =
        w.wantedTrunk := by
    intro numbers
    induction numbers with
    | nil => exact fun w => ⟨rfl, rfl, rfl⟩
    | cons number numbers ih => exact fun w => ih _
  rw [addAntiFraud]
  split
  · exact ⟨rfl, rfl, rfl⟩
  · split
    · exact ⟨rfl, rfl, rfl⟩
    · exact hfold _ w

theorem foldl_addAntiFraud_lists (cs : List Int) (w : WantedLists) :
    (cs.foldl r.addAntiFraud w).wantedLocal = w.wantedLocal ∧
      (cs.foldl r.addAntiFraud w).wantedGlobal = w.wantedGlobal ∧
      (cs.foldl r.addAntiFraud w).wantedTrunk = w.wantedTrunk := by
  induction cs generalizing w with
  | nil => exact ⟨rfl, rfl, rfl⟩
  | cons c cs ih =>
      obtain ⟨hlocal, hglobal, htrunk⟩ := ih (r.addAntiFraud w c)
      obtain ⟨hlocal', hglobal', htrunk'⟩ := r.addAntiFraud_lists w c
      exact ⟨hlocal.trans hlocal', hglobal.trans hglobal', htrunk.trans htrunk'⟩

theorem mem_wantedAntiFraudDisable_addAntiFraud (w : WantedLists) (c : Int) (x : Phone) :
    x ∈ (r.addAntiFraud w c).wantedAntiFraudDisable ↔ x ∈ w.wantedAntiFraudDisable ∨
      ∃ client, r.data.client c = some client ∧ client.antiFraudDisabled ∧
        ∃ number ∈ r.activeCounter.numbers client.id, number.asBlacklistNumber = x := by
  have hnumber : ∀ (w : WantedLists) (number : NumberRow),
      x ∈ insert number.asBlacklistNumber w.wantedAntiFraudDisable ↔
        x ∈ w.wantedAntiFraudDisable ∨ number.asBlacklistNumber = x := by
    intro w number
    rw [Finset.mem_insert, eq_comm, or_comm]
  rw [addAntiFraud]
  split
  case h_1 hclient => simp [hclient]
  case h_2 client hclient =>
    simp only [hclient, Option.some.injEq, exists_eq_left']
    cases hfraud : client.antiFraudDisabled with
    | false => simp
    | true =>
        have hfold := foldl_iff_exists (P := fun w => x ∈ w.wantedAntiFraudDisable)
          (f := fun w number => { w with
            wantedAntiFraudDisable :=
              insert number.asBlacklistNumber w.wantedAntiFraudDisable })
          hnumber (r.activeCounter.numbers client.id) w
        simpa using hfold

/-! ### The four lists -/

theorem mem_wantedLocal (locks : List ClientLockObj) (x : Phone) :
    x ∈ (r.wantedLists locks).wantedLocal ↔ ∃ lock ∈ locks, lock.disabledLocal ∧
      ∃ number ∈ r.activeCounter.numbers lock.clientId, ¬number.is7800 ∧ number.did = x := by
  have hfold := foldl_iff_exists (P := fun w => x ∈ w.wantedLocal)
    (fun w lock => r.mem_wantedLocal_addLock w lock x) locks {}
  rw [wantedLists, (r.foldl_addAntiFraud_lists _ _).1, hfold]
  simp

theorem mem_wantedGlobal (locks : List ClientLockObj) (x : Phone) :
    x ∈ (r.wantedLists locks).wantedGlobal ↔ ∃ lock ∈ locks,
      ∃ number ∈ r.activeCounter.numbers lock.clientId, number.asBlacklistNumber = x ∧
        (lock.disabledGlobal ∨ lock.disabledLocal ∧ number.is7800) := by
  have hfold := foldl_iff_exists (P := fun w => x ∈ w.wantedGlobal)
    (fun w lock => r.mem_wantedGlobal_addLock w lock x) locks {}
  rw [wantedLists, (r.foldl_addAntiFraud_lists _ _).2.1, hfold]
  simp

theorem mem_wantedTrunk (locks : List ClientLockObj) (x : Phone) :
    x ∈ (r.wantedLists locks).wantedTrunk ↔ ∃ lock ∈ locks,
      ∃ serviceTrunk ∈ r.activeCounter.trunks lock.clientId,
        ∃ trunk, r.data.trunk serviceTrunk.trunkId = some trunk ∧ trunk.trunkName = x ∧
          (lock.disabledGlobal ∨ lock.isFinanceBlock ∧ ¬trunk.authByNumber) := by
  have hfold := foldl_iff_exists (P := fun w => x ∈ w.wantedTrunk)
    (fun w lock => r.mem_wantedTrunk_addLock w lock x) locks {}
  rw [wantedLists, (r.foldl_addAntiFraud_lists _ _).2.2, hfold]
  simp

theorem mem_wantedAntiFraudDisable (locks : List ClientLockObj) (x : Phone) :
    x ∈ (r.wantedLists locks).wantedAntiFraudDisable ↔
      ∃ c ∈ r.activeCounter.activeClients, ∃ client, r.data.client c = some client ∧
        client.antiFraudDisabled ∧
          ∃ number ∈ r.activeCounter.numbers client.id, number.asBlacklistNumber = x := by
  have hlocks := foldl_iff_exists (P := fun w => x ∈ w.wantedAntiFraudDisable)
    (fun w lock => r.mem_wantedAntiFraudDisable_addLock w lock x) locks {}
  have hfold := foldl_iff_exists (P := fun w => x ∈ w.wantedAntiFraudDisable)
    (fun w c => r.mem_wantedAntiFraudDisable_addAntiFraud w c x)
    (r.activeCounter.activeClients.sort (· ≤ ·)) (locks.foldl r.addLock {})
  rw [wantedLists, hfold, hlocks]
  simp

end CalcRun

/-! ## What the counter hands on -/

namespace ClientLockCounter

def getLocks (c : ClientLockCounter) : List ClientLockObj := c.counter.toList.map Prod.snd

/-- Every record belongs to its account, or is one that was read after its removal. -/
def Owned (c : ClientLockCounter) : Prop :=
  ∀ (k : Int) (lock : ClientLockObj), c.counter[k]? = some lock →
    lock.clientId = k ∨ lock.clientId = 0

/-- The records are those of the last push; a record that was read after its
removal is there again, without a lock. -/
structure HoldsLocks (c : ClientLockCounter) (last : IntMap ClientLockObj) : Prop where
  pushed : ∀ (k : Int) (lock : ClientLockObj), last[k]? = some lock →
    c.counter[k]? = some { lock with clientId := k }
  others : ∀ (k : Int) (lock : ClientLockObj), c.counter[k]? = some lock → last[k]? = none →
    lock.toLockFlags = {}
  owned : Owned c

theorem HoldsLocks.get {c : ClientLockCounter} {last : IntMap ClientLockObj}
    (h : HoldsLocks c last) (clientId : Int) : HoldsLocks (c.get clientId).2 last := by
  rw [ClientLockCounter.get]
  cases hclient : c.counter[clientId]? with
  | some value => exact h
  | none =>
      have hlookup : ∀ k : Int, (c.counter.insert clientId ({} : ClientLockObj))[k]? =
          if clientId = k then some {} else c.counter[k]? :=
        fun k => IntMap.getElem?_insert _ _ _ _
      refine ⟨fun k lock hlock => ?_, fun k lock hlock hnone => ?_, fun k lock hlock => ?_⟩
      · have hk : clientId ≠ k := by
          rintro rfl
          rw [h.pushed clientId lock hlock] at hclient
          exact absurd hclient (by simp)
        show (c.counter.insert clientId ({} : ClientLockObj))[k]? = _
        rw [hlookup, if_neg hk]
        exact h.pushed k lock hlock
      · have hinsert : (c.counter.insert clientId ({} : ClientLockObj))[k]? = some lock := hlock
        rw [hlookup] at hinsert
        split at hinsert
        · exact (Option.some.inj hinsert) ▸ rfl
        · exact h.others k lock hinsert hnone
      · have hinsert : (c.counter.insert clientId ({} : ClientLockObj))[k]? = some lock := hlock
        rw [hlookup] at hinsert
        split at hinsert
        · exact Or.inr ((Option.some.inj hinsert) ▸ rfl)
        · exact h.owned k lock hinsert

theorem getElem?_pushRecord {c : ClientLockCounter} (h : c.Owned) (pair : Int × ClientLockObj)
    (k : Int) :
    (c.pushRecord pair).counter[k]? =
      if pair.1 = k then some { pair.2 with clientId := pair.1 } else c.counter[k]? := by
  rw [pushRecord]
  split
  case isTrue => exact IntMap.getElem?_insert _ _ _ _
  case isFalse hsame =>
    push Not at hsame
    split
    case isTrue hk =>
      subst hk
      cases hcc : c.counter[pair.1]? with
      | none => exact absurd (by simp [hcc]) hsame.1
      | some cc =>
          rw [hcc, Option.getD_some] at hsame
          have hid : cc.clientId = pair.1 := (h pair.1 cc hcc).resolve_right hsame.1
          obtain ⟨flags, id⟩ := cc
          obtain rfl : id = pair.1 := hid
          obtain rfl : flags = pair.2.toLockFlags := hsame.2
          rfl
    case isFalse => rfl

theorem Owned.pushRecord {c : ClientLockCounter} (h : c.Owned) (pair : Int × ClientLockObj) :
    (c.pushRecord pair).Owned := by
  intro k lock hlock
  rw [getElem?_pushRecord h] at hlock
  split at hlock
  case isTrue hk => exact Or.inl ((Option.some.inj hlock) ▸ hk)
  case isFalse => exact h k lock hlock

theorem getElem?_foldl_pushRecord (pairs : List (Int × ClientLockObj)) {c : ClientLockCounter}
    (h : c.Owned) (hdistinct : pairs.Pairwise fun a b => a.1 ≠ b.1) :
    (pairs.foldl ClientLockCounter.pushRecord c).Owned ∧
    (∀ pair ∈ pairs, (pairs.foldl ClientLockCounter.pushRecord c).counter[pair.1]? =
      some { pair.2 with clientId := pair.1 }) ∧
    ∀ k, (∀ pair ∈ pairs, pair.1 ≠ k) →
      (pairs.foldl ClientLockCounter.pushRecord c).counter[k]? = c.counter[k]? := by
  induction pairs generalizing c with
  | nil => exact ⟨h, by simp, fun _ _ => rfl⟩
  | cons pair pairs ih =>
      rw [List.pairwise_cons] at hdistinct
      obtain ⟨howned, hpushed, hother⟩ := ih (h.pushRecord pair) hdistinct.2
      refine ⟨howned, fun p hp => ?_, fun k hk => ?_⟩
      · rcases List.mem_cons.mp hp with rfl | hp
        · rw [List.foldl_cons, hother _ fun q hq => (hdistinct.1 q hq).symm,
            getElem?_pushRecord h, if_pos rfl]
        · exact hpushed p hp
      · rw [List.foldl_cons, hother k fun q hq => hk q (List.mem_cons_of_mem pair hq),
          getElem?_pushRecord h, if_neg (hk pair List.mem_cons_self)]

theorem getElem?_eraseMissing (clientLocks : IntMap ClientLockObj) (junk : Int) (ks : List Int)
    (c : ClientLockCounter) (k : Int) :
    (eraseMissing clientLocks junk ks c).counter[k]? =
      if k ∈ ks ∧ clientLocks[k]? = none then none else c.counter[k]? := by
  induction ks generalizing c with
  | nil => simp [eraseMissing]
  | cons a ks ih =>
      cases ha : clientLocks[a]? with
      | some value =>
          rw [eraseMissing, ha]
          simp only [ih]
          by_cases hk : k = a
          · subst hk
            simp [ha]
          · simp [hk]
      | none =>
          rw [eraseMissing, ha]
          simp only [ih]
          by_cases hk : k = a
          · subst hk
            simp [ha, mark]
          · simp [hk, mark, Ne.symm hk]

/-- After a push the counter holds the pushed locks and no others. -/
theorem Owned.push {c : ClientLockCounter} (h : c.Owned) (clientLocks : IntMap ClientLockObj)
    (junk k : Int) :
    (c.push clientLocks junk).counter[k]? =
      clientLocks[k]?.map fun lock => { lock with clientId := k } := by
  have hdistinct : clientLocks.toList.Pairwise fun a b => a.1 ≠ b.1 :=
    Std.ExtTreeMap.distinct_keys_toList.imp fun h heq => h (by simp [heq])
  obtain ⟨-, hpushed, hother⟩ := getElem?_foldl_pushRecord clientLocks.toList h hdistinct
  rw [ClientLockCounter.push]
  show (eraseMissing clientLocks junk _ _).counter[k]? = _
  rw [getElem?_eraseMissing]
  cases hk : clientLocks[k]? with
  | some lock =>
      rw [if_neg (by simp)]
      exact hpushed (k, lock) (Std.ExtTreeMap.mem_toList_iff_getElem?_eq_some.mpr hk)
  | none =>
      by_cases hmem : k ∈ (clientLocks.toList.foldl ClientLockCounter.pushRecord c).counter.keys
      · rw [if_pos ⟨hmem, rfl⟩]
        rfl
      · rw [if_neg fun hand => hmem hand.1]
        rw [mem_keys_counter, not_not, flags_eq_none] at hmem
        rw [hmem]
        rfl

theorem HoldsLocks.push {c : ClientLockCounter} (h : c.Owned) (clientLocks : IntMap ClientLockObj)
    (junk : Int) : HoldsLocks (c.push clientLocks junk) clientLocks := by
  have hpush := h.push clientLocks junk
  refine ⟨fun k lock hlock => ?_, fun k lock hlock hnone => ?_, fun k lock hlock => ?_⟩
  · rw [hpush, hlock]
    rfl
  · rw [hpush, hnone] at hlock
    exact absurd hlock (by simp)
  · rw [hpush] at hlock
    obtain ⟨pushed, -, rfl⟩ := Option.map_eq_some_iff.mp hlock
    exact Or.inl rfl

theorem mem_getLocks {c : ClientLockCounter} {lock : ClientLockObj} :
    lock ∈ c.getLocks ↔ ∃ k : Int, c.counter[k]? = some lock := by
  simp [getLocks, Std.ExtTreeMap.mem_toList_iff_getElem?_eq_some]

/-- A property of locks, not of records without one, speaks of the last push. -/
theorem HoldsLocks.exists_iff {c : ClientLockCounter} {last : IntMap ClientLockObj}
    (h : HoldsLocks c last) {Q : ClientLockObj → Prop}
    (hfree : ∀ lock, lock.toLockFlags = {} → ¬Q lock) :
    (∃ lock ∈ c.getLocks, Q lock) ↔
      ∃ (k : Int) (lock : ClientLockObj), last[k]? = some lock ∧ Q { lock with clientId := k } := by
  constructor
  · rintro ⟨lock, hmem, hlock⟩
    obtain ⟨k, hk⟩ := mem_getLocks.mp hmem
    cases hlast : last[k]? with
    | none => exact absurd hlock (hfree lock (h.others k lock hk hlast))
    | some pushed =>
        obtain rfl : { pushed with clientId := k } = lock :=
          Option.some.inj ((h.pushed k pushed hlast).symm.trans hk)
        exact ⟨k, pushed, hlast, hlock⟩
  · rintro ⟨k, lock, hlast, hlock⟩
    exact ⟨_, mem_getLocks.mpr ⟨k, h.pushed k lock hlast⟩, hlock⟩

end ClientLockCounter

/-- Whatever the synchronising thread does in between, the counter holds the
locks of the last push. -/
theorem ClientLocks.holdsLocks_run {s t : LockSys} {as : List Act} (hstart : Started s)
    (hrun : run step s as = some t) : t.clientLock.HoldsLocks t.last := by
  have hstep : ∀ s a s', s.clientLock.HoldsLocks s.last → step s a = some s' →
      s'.clientLock.HoldsLocks s'.last := by
    intro s a s' h hs
    rcases step_cases hs with ⟨clientLocks, junk, rfl, rfl⟩ | ⟨rfl, -, rfl⟩ |
      ⟨marker, total, accountId, changes, rows, rfl, -, rfl⟩ | ⟨marker, rows, rfl, -, rfl⟩ |
      ⟨marker, rows, rfl, -, ⟨-, rfl⟩ | rfl⟩ | ⟨marker, total, rows, rfl, -, rfl⟩ |
      ⟨marker, rfl, -, rfl⟩ | ⟨marker, rfl, -, rfl⟩
    · exact ClientLockCounter.HoldsLocks.push h.owned clientLocks junk
    · exact h
    · exact h.get accountId
    · exact h
    · exact h
    · exact h
    · exact h
    · exact ⟨h.pushed, h.others, h.owned⟩
    · exact ⟨h.pushed, h.others, h.owned⟩
  have hinit : s.clientLock.HoldsLocks s.last := by
    rw [hstart.clientLock, hstart.last]
    refine ⟨fun k lock hlock => ?_, fun k lock hlock => ?_, fun k lock hlock => ?_⟩
    · exact absurd hlock (by simp)
    · exact absurd hlock (by simp [ClientLockCounter.empty])
    · exact absurd hlock (by simp [ClientLockCounter.empty])
  exact run_invariant hstep hinit hrun

/-! ## The policy -/

namespace LockRun

variable (r : LockRun)

/-- The account may only call local numbers. -/
def LocalOnly (c : Int) : Prop :=
  ∃ client, r.data.client c = some client ∧
    (client.disabled ∨ client.isConsumedCreditLimit (r.spentBalanceSum client) ∧ r.autoLockFinance ∨
      client.isConsumedDailyLimit (r.spentDaySum client))

/-- The account has used up its credit, and the instance locks such accounts. -/
def OutOfCredit (c : Int) : Prop :=
  ∃ client, r.data.client c = some client ∧
    client.isConsumedCreditLimit (r.spentBalanceSum client) ∧ r.autoLockFinance

def FullyBlocked (c : Int) : Prop :=
  ∃ client, r.data.client c = some client ∧ client.isBlocked

theorem exists_lockOf_iff (c : Int) {Q : ClientLockObj → Prop}
    (hfree : ∀ lock, lock.disabledLocal = false → lock.disabledGlobal = false →
      lock.isFinanceBlock = false → ¬Q lock) :
    (∃ lock, r.clientLocks[c]? = some lock ∧ Q lock) ↔
      c ∈ r.activeCounter.activeClients ∧ Q {
        clientId := c
        disabledLocal := (r.needLockLocal c).1
        isMnOverran := (r.needLockLocal c).2.2.2
        disabledGlobal := r.needLockGlobal c
        isOverran := (r.needLockLocal c).2.2.1
        isFinanceBlock := (r.needLockLocal c).2.1 } := by
  rw [getElem?_clientLocks]
  by_cases hc : c ∈ r.activeCounter.activeClients
  · rw [if_pos hc, lockOf_eq]
    by_cases hneed : ((r.needLockLocal c).1 || r.needLockGlobal c || (r.needLockLocal c).2.2.1 ||
        (r.needLockLocal c).2.1 || (r.needLockLocal c).2.2.2) = true
    · rw [if_pos hneed]
      simp [hc]
    · rw [if_neg hneed]
      simp only [Bool.or_eq_true, not_or, Bool.not_eq_true] at hneed
      obtain ⟨⟨⟨⟨hlocked, hglobal⟩, -⟩, hfinance⟩, -⟩ := hneed
      simp only [reduceCtorEq, false_and, exists_false, hc, true_and, false_iff]
      exact hfree _ hlocked hglobal hfinance
  · simp [hc]

theorem needLockLocal_iff (c : Int) : (r.needLockLocal c).1 = true ↔ r.LocalOnly c := by
  rw [needLockLocal, LocalOnly]
  cases r.data.client c with
  | none => simp
  | some client => simp [or_assoc]

theorem needLockFinance_iff (c : Int) : (r.needLockLocal c).2.1 = true ↔ r.OutOfCredit c := by
  rw [needLockLocal, OutOfCredit]
  cases r.data.client c with
  | none => simp
  | some client => simp

theorem needLockGlobal_iff (c : Int) : r.needLockGlobal c = true ↔ r.FullyBlocked c := by
  rw [needLockGlobal, FullyBlocked]
  cases r.data.client c with
  | none => simp
  | some client => simp

end LockRun

/-- **The wanted lists follow the limits.**  In every run of pushes and of the
synchronising thread, the lists that are computed from the counter hold, of the
numbers and trunks in force:

* for local calls only, the numbers of accounts that are disabled or have used up
  a limit, except 7800 numbers,
* for no call at all, the 7800 numbers of these, and all numbers of accounts that
  are fully blocked,
* the trunks of fully blocked accounts, and those without authorisation by number
  of accounts that are out of credit,
* the numbers of accounts without fraud protection. -/
theorem wanted_iff_limits {s t : ClientLocks.LockSys} {as : List ClientLocks.Act}
    (hstart : ClientLocks.Started s) (hrun : run ClientLocks.step s as = some t) (r : LockRun)
    (hlast : t.last = r.clientLocks) (data : DataContainer) (now : Int)
    (serviceNumbers : List NumberRow) (serviceTrunks : List ServiceTrunk) (x : Phone) :
    let calcRun : CalcRun := ⟨data, .load now serviceNumbers serviceTrunks⟩
    let wanted := calcRun.wantedLists t.clientLock.getLocks
    (x ∈ wanted.wantedLocal ↔ ∃ c ∈ r.activeCounter.activeClients, r.LocalOnly c ∧
      ∃ number, ActiveCounter.ActiveNumber now serviceNumbers c number ∧ ¬number.is7800 ∧
        number.did = x) ∧
    (x ∈ wanted.wantedGlobal ↔ ∃ c ∈ r.activeCounter.activeClients,
      ∃ number, ActiveCounter.ActiveNumber now serviceNumbers c number ∧
        number.asBlacklistNumber = x ∧ (r.FullyBlocked c ∨ r.LocalOnly c ∧ number.is7800)) ∧
    (x ∈ wanted.wantedTrunk ↔ ∃ c ∈ r.activeCounter.activeClients,
      ∃ serviceTrunk, ActiveCounter.ActiveTrunk now serviceTrunks c serviceTrunk ∧
        ∃ trunk, data.trunk serviceTrunk.trunkId = some trunk ∧ trunk.trunkName = x ∧
          (r.FullyBlocked c ∨ r.OutOfCredit c ∧ ¬trunk.authByNumber)) ∧
    (x ∈ wanted.wantedAntiFraudDisable ↔ ∃ c ∈ calcRun.activeCounter.activeClients,
      ∃ client, data.client c = some client ∧ client.antiFraudDisabled ∧
        ∃ number, ActiveCounter.ActiveNumber now serviceNumbers client.id number ∧
          number.asBlacklistNumber = x) := by
  intro calcRun wanted
  have hlocks := ClientLocks.holdsLocks_run hstart hrun
  rw [hlast] at hlocks
  have hlocal := calcRun.mem_wantedLocal t.clientLock.getLocks x
  have hglobal := calcRun.mem_wantedGlobal t.clientLock.getLocks x
  have htrunk := calcRun.mem_wantedTrunk t.clientLock.getLocks x
  have hfraud := calcRun.mem_wantedAntiFraudDisable t.clientLock.getLocks x
  -- the locks are those of the last run, read as conditions on the client
  rw [hlocks.exists_iff fun lock hfree => by simp [hfree]] at hlocal hglobal htrunk
  refine ⟨hlocal.trans (exists_congr fun c => ?_), hglobal.trans (exists_congr fun c => ?_),
    htrunk.trans (exists_congr fun c => ?_), ?_⟩
  · refine (r.exists_lockOf_iff c fun lock hfree => by simp [hfree]).trans ?_
    simp only [r.needLockLocal_iff, calcRun, ActiveCounter.mem_numbers_load]
  · refine (r.exists_lockOf_iff c fun lock hfree hfree' => by simp [hfree, hfree']).trans ?_
    simp only [r.needLockLocal_iff, r.needLockGlobal_iff, calcRun, ActiveCounter.mem_numbers_load]
  · refine (r.exists_lockOf_iff c fun lock _ hfree hfree' => by simp [hfree, hfree']).trans ?_
    simp only [r.needLockFinance_iff, r.needLockGlobal_iff, calcRun,
      ActiveCounter.mem_trunks_load]
  · simpa only [calcRun, ActiveCounter.mem_numbers_load] using hfraud

/-! A blocked account with one number. -/

def blockedData : DataContainer where
  client := fun id => if id = 3 then some { id := 3, isBlocked := true } else none

def blockedNumber : NumberRow where
  id := 1
  clientAccountId := 3
  did := ['7', '4', '9', '5']
  expireDt := 100
  isLocal := true

def blockedRun : LockRun where
  now := 50
  conf := {}
  data := blockedData
  activeCounter := .load 50 [blockedNumber] []
  globalCounters := fun _ => none
  statsAccount := ∅

def afterPush : ClientLocks.LockSys where
  clientLock := ClientLockCounter.empty.push blockedRun.clientLocks 0
  central := ∅
  phase := .idle
  last := blockedRun.clientLocks

theorem wanted_iff_limits_blockedNumber :
    ['7', '4', '9', '5'] ∈ (CalcRun.wantedLists ⟨blockedData, .load 50 [blockedNumber] []⟩
      afterPush.clientLock.getLocks).wantedGlobal := by
  have hstart : ClientLocks.Started ⟨.empty, ∅, .idle, ∅⟩ := ⟨rfl, rfl, rfl⟩
  have hrun : run ClientLocks.step ⟨.empty, ∅, .idle, ∅⟩ [.push blockedRun.clientLocks 0] =
      some afterPush := rfl
  have hpolicy := wanted_iff_limits hstart hrun blockedRun rfl blockedData 50 [blockedNumber] []
    ['7', '4', '9', '5']
  refine hpolicy.2.1.mpr ⟨3, ?_, blockedNumber, rfl, by decide, Or.inl ?_⟩
  · exact ActiveCounter.mem_activeClients_load.mpr (Or.inl ⟨blockedNumber, by simp, by decide, rfl⟩)
  · exact ⟨{ id := 3, isBlocked := true }, rfl, rfl⟩

end VoipBill
