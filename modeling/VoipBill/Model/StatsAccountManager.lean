import VoipBill.Lib.WriteBehind
import VoipBill.Model.Records
import Std.Data.ExtTreeSet

/-!
# Account counters

`StatsAccountManager` keeps one row per account.  A call is booked on the row
of its account unless the account is unknown or the cost is negligible.

`add_cases` says what adding a call can do; later proofs use it instead of the
definition.
-/

namespace VoipBill

open Lib

/-- Rows of accounts, the queue of changed rows and the ids to synchronise. -/
structure StatsAccountManager extends Ledger StatsAccount where
  forSync : Std.ExtTreeSet Int
  needClear : Bool

namespace StatsAccountManager

/-- A manager without rows, as its constructor leaves it. -/
def empty : StatsAccountManager where
  rows := ∅
  parts := [∅]
  forSync := ∅
  needClear := false

/-- The first call of an account sets its day, month and invoice date. -/
def initStats (stats : StatsAccount) (callInfo : CallInfo) (account : Client) : StatsAccount :=
  if stats.accountId = 0 then
    { stats with
      accountId := callInfo.call.accountId
      amountMonth := callInfo.dtUtc.month
      amountDay := callInfo.dtUtc.day
      amountDate := account.amountDate }
  else
    stats

def addMonth (stats : StatsAccount) (callInfo : CallInfo) : StatsAccount :=
  if |callInfo.dtUtc.month - stats.amountMonth| < 43200 then
    { stats with sumMonth := stats.sumMonth + callInfo.call.cost }
  else if callInfo.dtUtc.month > stats.amountMonth then
    { stats with amountMonth := callInfo.dtUtc.month, sumMonth := callInfo.call.cost }
  else
    stats

/-- International traffic has its own counter, reset with the day. -/
def addDay (stats : StatsAccount) (callInfo : CallInfo) : StatsAccount :=
  if |callInfo.dtUtc.day - stats.amountDay| < 43200 then
    { stats with
      sumDay := stats.sumDay + callInfo.call.cost
      sumMnDay :=
        if callInfo.call.isInternational then stats.sumMnDay + callInfo.call.cost
        else stats.sumMnDay }
  else if callInfo.dtUtc.day > stats.amountDay then
    { stats with
      amountDay := callInfo.dtUtc.day
      sumDay := callInfo.call.cost
      sumMnDay := if callInfo.call.isInternational then callInfo.call.cost else 0 }
  else
    stats

def addSum (stats : StatsAccount) (callInfo : CallInfo) (account : Client) : StatsAccount :=
  if callInfo.call.connectTime ≥ account.amountDate then
    { stats with sum := stats.sum + callInfo.call.cost }
  else
    stats

/-- The row of an account after a call. -/
def updateStats (stats : StatsAccount) (callInfo : CallInfo) (account : Client) :
    StatsAccount :=
  addSum (addDay (addMonth (initStats stats callInfo account) callInfo) callInfo)
    callInfo account

/-- The account a call is booked on. -/
def bookedRow (callInfo : CallInfo) : Option Int :=
  if callInfo.account = none ∨ |callInfo.call.cost| < 0.000001 then none
  else some callInfo.call.accountId

def add (m : StatsAccountManager) (callInfo : CallInfo) : StatsAccountManager :=
  match callInfo.account with
  | none => m
  | some account =>
      if |callInfo.call.cost| < 0.000001 then
        m
      else
        let id := callInfo.call.accountId
        let stats := updateStats (m.rows[id]?.getD {}) callInfo account
        { m with toLedger := m.put id stats, forSync := m.forSync.insert id }

def createNewPartition (m : StatsAccountManager) : StatsAccountManager :=
  { m with toLedger := m.openPart }

def removePartitionAfterSave (m : StatsAccountManager) : StatsAccountManager :=
  { m with toLedger := m.dropPart }

/-- What adding a call can do: nothing, or book it on the row of its account. -/
theorem add_cases (m : StatsAccountManager) (callInfo : CallInfo) :
    (bookedRow callInfo = none ∧ m.add callInfo = m) ∨
    ∃ account, callInfo.account = some account ∧
      bookedRow callInfo = some callInfo.call.accountId ∧
      (m.add callInfo).toLedger = m.put callInfo.call.accountId
        (updateStats (m.rows[callInfo.call.accountId]?.getD {}) callInfo account) := by
  unfold add bookedRow
  cases haccount : callInfo.account with
  | none => simp
  | some account =>
      by_cases hcost : |callInfo.call.cost| < 0.000001
      · simp [hcost]
      · simp [hcost]

theorem add_writes (m : StatsAccountManager) (callInfo : CallInfo) :
    m.Writes (m.add callInfo).toLedger := by
  rcases m.add_cases callInfo with ⟨-, heq⟩ | ⟨_, -, -, heq⟩
  · exact Or.inl (by rw [heq])
  · exact Or.inr ⟨_, _, heq⟩

end StatsAccountManager
end VoipBill
