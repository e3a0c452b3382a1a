import VoipBill.Lib.IntMap
import VoipBill.Lib.Run
import VoipBill.Model.Records

/-!
# Authorisation of a call

`RadiusAuthProcessor::analyzeCall` answers a request from the limits of the
account and from the sums it has spent.  A call that fits into a limit without
its own cost but not with it is let through, and the account is blocked for a
minute; the blocks are shared by all requests.

The finance lock can be switched off.  The switch is looked at after the limit
check, which has already written its block by then: a later request finds the
block and is answered `low_balance`.  `no_lowBalance_of_run` says that without
such a block the switch is respected over whole sequences of requests.
-/

namespace VoipBill

open Lib

inductive RejectReason where
  | noBalance
  | dailyLimit
deriving DecidableEq, Repr

/-- The answers of `analyzeCall`. -/
inductive BillResponse where
  | accept
  | reject
  | lowBalance
  | voipDisabled
deriving DecidableEq, Repr

/-- What an account has spent: in finished calls of this instance, in current
calls, and elsewhere. -/
structure SpentSums where
  sumBalance : ℚ := 0
  sumDay : ℚ := 0
  sumMNDay : ℚ := 0
  sumBalance2 : ℚ := 0
  sumDay2 : ℚ := 0
  sumMNDay2 : ℚ := 0
  globalBalanceSum : ℚ := 0
  globalDaySum : ℚ := 0
  globalDayMNSum : ℚ := 0
deriving DecidableEq

/-- Blocked accounts: the reason and the end of the block. -/
abbrev AccountIdsBlocked : Type := IntMap (RejectReason × Int)

/-- A priced request with what the repository knows about it: the trunk it comes
from, whether the number is an emergency number, the account and its sums, and
the settings of the instance. -/
structure AuthRequest where
  now : Int := 0
  origTrunk : Trunk := {}
  isEmergencyCall : Bool := false
  account : Option Client := none
  sums : SpentSums := {}
  instanceSettings : Option InstanceSettings := none
  call : Call := {}

namespace AuthRequest

def autoLockFinance (req : AuthRequest) : Bool :=
  match req.instanceSettings with
  | some settings => settings.autoLockFinance
  | none => false

/-- The sums include the cost of the call itself. -/
def spentBalanceSum (req : AuthRequest) : ℚ :=
  req.sums.sumBalance + (req.sums.sumBalance2 + req.call.cost) + req.sums.globalBalanceSum

def spentDaySum (req : AuthRequest) : ℚ :=
  req.sums.sumDay + (req.sums.sumDay2 + req.call.cost) + req.sums.globalDaySum

def spentDayMNSum (req : AuthRequest) : ℚ :=
  req.sums.sumMNDay + (req.sums.sumMNDay2 + req.call.cost) + req.sums.globalDayMNSum

end AuthRequest

namespace RadiusAuth

/-- The limit is used up even without the call; if only with it, the account is
blocked for a minute. -/
def isLowBalance (checkLimit : ℚ → Bool) (reason : RejectReason) (req : AuthRequest) (spent : ℚ)
    (blocked : AccountIdsBlocked) : Bool × AccountIdsBlocked :=
  if checkLimit spent then
    if checkLimit (spent - req.call.cost) then (true, blocked)
    else (false, blocked.insert req.call.accountId (reason, req.now + 60))
  else
    (false, blocked)

def creditCheck (req : AuthRequest) (client : Client) (blocked : AccountIdsBlocked) :
    Bool × AccountIdsBlocked :=
  isLowBalance client.isConsumedCreditLimit .noBalance req req.spentBalanceSum blocked

/-- The daily limit counts for long-distance calls only. -/
def dayCheck (req : AuthRequest) (client : Client) (blocked : AccountIdsBlocked) :
    Bool × AccountIdsBlocked :=
  if req.call.isLocal then (false, blocked)
  else isLowBalance client.isConsumedDailyLimit .dailyLimit req req.spentDaySum blocked

def dayMNCheck (req : AuthRequest) (client : Client) (blocked : AccountIdsBlocked) :
    Bool × AccountIdsBlocked :=
  if req.call.isInternational then
    isLowBalance client.isConsumedDailyMNLimit .dailyLimit req req.spentDayMNSum blocked
  else
    (false, blocked)

/-- The branch of a call charged by number. -/
def analyzeNumber (req : AuthRequest) (client : Client) (blocked : AccountIdsBlocked) :
    BillResponse × AccountIdsBlocked :=
  let credit := creditCheck req client blocked
  if credit.1 ∧ 0.000001 < |req.call.cost| ∧ req.autoLockFinance then
    (.lowBalance, credit.2)
  else
    let day := dayCheck req client credit.2
    if day.1 then
      (.voipDisabled, day.2)
    else
      let dayMN := dayMNCheck req client day.2
      if dayMN.1 then (.voipDisabled, dayMN.2)
      else if client.isBlocked then (.voipDisabled, dayMN.2)
      else if !req.call.isLocal ∧ client.disabled then (.voipDisabled, dayMN.2)
      else (.accept, dayMN.2)

/-- The limits of a known account that is not blocked. -/
def analyzeLimits (req : AuthRequest) (client : Client) (blocked : AccountIdsBlocked) :
    BillResponse × AccountIdsBlocked :=
  if req.call.trunkServiceId ≠ 0 then
    let credit := creditCheck req client blocked
    if credit.1 ∧ req.autoLockFinance then (.lowBalance, credit.2) else (.accept, credit.2)
  else if req.call.numberServiceId ≠ 0 ∧ req.call.orig then
    analyzeNumber req client blocked
  else
    (.accept, blocked)

def analyzeCall (req : AuthRequest) (blocked : AccountIdsBlocked) :
    BillResponse × AccountIdsBlocked :=
  if req.origTrunk.techTrunk || req.origTrunk.pstnTrunk then
    (.accept, blocked)
  else if req.isEmergencyCall then
    (.accept, blocked)
  else if req.call.accountId = 0 then
    (.reject, blocked)
  else
    match req.account with
    | none => (.reject, blocked)
    | some client =>
        match blocked[req.call.accountId]? with
        | some block =>
            (if block.1 = .noBalance then .lowBalance else .voipDisabled, blocked)
        | none => analyzeLimits req client blocked

/-- Blocks that have ended are removed before a request is analysed. -/
def processRequest (req : AuthRequest) (blocked : AccountIdsBlocked) :
    BillResponse × AccountIdsBlocked :=
  analyzeCall req (blocked.filter fun _ block => decide (req.now < block.2))

/-! ## The finance lock is switched off -/

/-- The shared blocks after a request. -/
def step (blocked : AccountIdsBlocked) (req : AuthRequest) : Option AccountIdsBlocked :=
  some (processRequest req blocked).2

/-- The credit limit is used up by the cost of the call itself. -/
def usesUpCredit (req : AuthRequest) (client : Client) : Bool :=
  client.isConsumedCreditLimit req.spentBalanceSum &&
    !client.isConsumedCreditLimit (req.spentBalanceSum - req.call.cost)

/-- No call that is checked against the credit limit of its account uses it up. -/
def CreditOk (blocked : AccountIdsBlocked) (req : AuthRequest) : Prop :=
  ∀ client, req.account = some client →
    ¬ (req.origTrunk.techTrunk || req.origTrunk.pstnTrunk || req.isEmergencyCall) →
    req.call.accountId ≠ 0 →
    (∀ block, blocked[req.call.accountId]? = some block → block.2 ≤ req.now) →
    (req.call.trunkServiceId ≠ 0 ∨ req.call.numberServiceId ≠ 0 ∧ req.call.orig = true) →
    usesUpCredit req client = false

/-- No account is blocked for its balance. -/
def NoBalanceBlock (blocked : AccountIdsBlocked) : Prop :=
  ∀ (id : Int) block, blocked[id]? = some block → block.1 ≠ .noBalance

theorem NoBalanceBlock.insert {blocked : AccountIdsBlocked} (h : NoBalanceBlock blocked)
    (id time : Int) : NoBalanceBlock (blocked.insert id (.dailyLimit, time)) := by
  intro id' block hblock
  rw [IntMap.getElem?_insert] at hblock
  split at hblock
  · rw [← Option.some.inj hblock]
    simp
  · exact h id' block hblock

theorem NoBalanceBlock.filter {blocked : AccountIdsBlocked} (h : NoBalanceBlock blocked)
    (now : Int) : NoBalanceBlock (blocked.filter fun _ block => decide (now < block.2)) := by
  intro id block hblock
  rw [Std.ExtTreeMap.getElem?_filter', Option.filter_eq_some_iff] at hblock
  exact h id block hblock.1

theorem NoBalanceBlock.isLowBalance {blocked : AccountIdsBlocked} (h : NoBalanceBlock blocked)
    (checkLimit : ℚ → Bool) (req : AuthRequest) (spent : ℚ) :
    NoBalanceBlock (isLowBalance checkLimit .dailyLimit req spent blocked).2 := by
  unfold RadiusAuth.isLowBalance
  split
  · split
    · exact h
    · exact h.insert _ _
  · exact h

theorem NoBalanceBlock.dayCheck {blocked : AccountIdsBlocked} (h : NoBalanceBlock blocked)
    (req : AuthRequest) (client : Client) : NoBalanceBlock (dayCheck req client blocked).2 := by
  unfold RadiusAuth.dayCheck
  split
  · exact h
  · exact h.isLowBalance _ _ _

theorem NoBalanceBlock.dayMNCheck {blocked : AccountIdsBlocked} (h : NoBalanceBlock blocked)
    (req : AuthRequest) (client : Client) : NoBalanceBlock (dayMNCheck req client blocked).2 := by
  unfold RadiusAuth.dayMNCheck
  split
  · exact h.isLowBalance _ _ _
  · exact h

/-- The credit check writes a block only for a call that uses the limit up. -/
theorem creditCheck_blocked {req : AuthRequest} {client : Client}
    (h : usesUpCredit req client = false) (blocked : AccountIdsBlocked) :
    (creditCheck req client blocked).2 = blocked := by
  unfold creditCheck isLowBalance
  split
  case isFalse => rfl
  case isTrue hwith =>
    split
    case isTrue => rfl
    case isFalse hwithout => simp [usesUpCredit, hwith, hwithout] at h

theorem NoBalanceBlock.analyzeNumber {req : AuthRequest} {client : Client}
    (hcredit : usesUpCredit req client = false) {blocked : AccountIdsBlocked}
    (h : NoBalanceBlock blocked) : NoBalanceBlock (analyzeNumber req client blocked).2 := by
  have hday := h.dayCheck req client
  have hmn := hday.dayMNCheck req client
  simp only [RadiusAuth.analyzeNumber, creditCheck_blocked hcredit]
  split
  · exact h
  · split
    · exact hday
    · split
      · exact hmn
      · split
        · exact hmn
        · split
          · exact hmn
          · exact hmn

theorem NoBalanceBlock.analyzeLimits {req : AuthRequest} {client : Client}
    (hcredit : req.call.trunkServiceId ≠ 0 ∨
      req.call.numberServiceId ≠ 0 ∧ req.call.orig = true → usesUpCredit req client = false)
    {blocked : AccountIdsBlocked} (h : NoBalanceBlock blocked) :
    NoBalanceBlock (analyzeLimits req client blocked).2 := by
  unfold RadiusAuth.analyzeLimits
  split
  case isTrue htrunk =>
    have hblocked := creditCheck_blocked (hcredit (Or.inl htrunk)) blocked
    simp only [hblocked]
    split
    · exact h
    · exact h
  case isFalse =>
    split
    case isTrue hnumber => exact h.analyzeNumber (hcredit (Or.inr hnumber))
    case isFalse => exact h

/-- With the switch off the limits alone never give `low_balance`. -/
theorem analyzeLimits_off {req : AuthRequest} (hoff : req.autoLockFinance = false)
    (client : Client) (blocked : AccountIdsBlocked) :
    (analyzeLimits req client blocked).1 ≠ .lowBalance := by
  unfold analyzeLimits
  split
  · simp [hoff]
  · split
    · simp only [analyzeNumber, hoff, Bool.false_eq_true, and_false, if_false]
      split
      · simp
      · split
        · simp
        · split
          · simp
          · split
            · simp
            · simp
    · simp

theorem analyzeCall_off {req : AuthRequest} (hoff : req.autoLockFinance = false)
    {blocked : AccountIdsBlocked} (h : NoBalanceBlock blocked) :
    (analyzeCall req blocked).1 ≠ .lowBalance := by
  unfold analyzeCall
  split
  · simp
  · split
    · simp
    · split
      · simp
      · split
        · simp
        · split
          case h_1 block hblock => simp [h _ block hblock]
          case h_2 => exact analyzeLimits_off hoff _ _

theorem NoBalanceBlock.analyzeCall {req : AuthRequest} {blocked : AccountIdsBlocked}
    (hcredit : ∀ client, req.account = some client →
      ¬ (req.origTrunk.techTrunk || req.origTrunk.pstnTrunk || req.isEmergencyCall) →
      req.call.accountId ≠ 0 → blocked[req.call.accountId]? = none →
      req.call.trunkServiceId ≠ 0 ∨ req.call.numberServiceId ≠ 0 ∧ req.call.orig = true →
      usesUpCredit req client = false)
    (h : NoBalanceBlock blocked) : NoBalanceBlock (analyzeCall req blocked).2 := by
  unfold RadiusAuth.analyzeCall
  split
  case isTrue => exact h
  case isFalse htrunk =>
    split
    case isTrue => exact h
    case isFalse hemergency =>
      split
      case isTrue => exact h
      case isFalse hid =>
        split
        case h_1 => exact h
        case h_2 client haccount =>
          split
          case h_1 => exact h
          case h_2 hblocked =>
            exact h.analyzeLimits
              (hcredit client haccount (by simp_all) hid hblocked)

theorem step_noBalanceBlock {blocked blocked' : AccountIdsBlocked} {req : AuthRequest}
    (h : NoBalanceBlock blocked) (hok : CreditOk blocked req)
    (hs : step blocked req = some blocked') : NoBalanceBlock blocked' := by
  rw [step, Option.some.injEq] at hs
  subst hs
  refine NoBalanceBlock.analyzeCall ?_ (h.filter req.now)
  intro client haccount htrunk hid hblocked hservice
  refine hok client haccount htrunk hid (fun block hblock => ?_) hservice
  -- a block that is still there would have stopped the request
  by_contra hlt
  rw [Std.ExtTreeMap.getElem?_filter', hblock, Option.filter_eq_none_iff] at hblocked
  exact absurd (hblocked block rfl) (by simpa using hlt)

/-- **The finance switch.**  If the switch is off and no request uses up the
credit limit of its account, no request of the sequence is answered
`low_balance`. -/
theorem no_lowBalance_of_run {reqs : List AuthRequest} {blocked : AccountIdsBlocked}
    (hok : Meets step CreditOk ∅ reqs) (hrun : run step ∅ reqs = some blocked)
    {req : AuthRequest} (hoff : req.autoLockFinance = false) :
    (processRequest req blocked).1 ≠ .lowBalance := by
  have hinit : NoBalanceBlock ∅ := by
    intro id block hblock
    simp at hblock
  have hblocked : NoBalanceBlock blocked :=
    run_invariant_of_meets (fun _ _ _ h hok hstep => step_noBalanceBlock h hok hstep) hinit hok
      hrun
  exact analyzeCall_off hoff (hblocked.filter req.now)

/-- A request of account 7 over a trunk; the account has 1 left. -/
def request (now : Int) (cost : ℚ) : AuthRequest where
  now := now
  account := some { id := 7, balance := 1 }
  call := { accountId := 7, trunkServiceId := 5, orig := true, cost := cost }

theorem no_lowBalance_of_request :
    ∃ blocked, run step ∅ [request 0 (-1/2)] = some blocked ∧
      (processRequest (request 10 (-1/2)) blocked).1 ≠ .lowBalance := by
  have hok : Meets step CreditOk ∅ [request 0 (-1/2)] := by
    refine ⟨?_, fun _ _ => trivial⟩
    intro client haccount _ _ _ _
    rw [← Option.some.inj haccount]
    decide +kernel
  exact ⟨_, rfl, no_lowBalance_of_run hok rfl rfl⟩

/-- The first request uses up the limit; the second one, ten seconds later, is
answered `low_balance` although the switch is off. -/
theorem lowBalance_of_two_requests :
    (request 0 (-2)).autoLockFinance = false ∧ (request 10 (-2)).autoLockFinance = false ∧
    ∃ blocked, run step ∅ [request 0 (-2)] = some blocked ∧
      (processRequest (request 10 (-2)) blocked).1 = .lowBalance := by
  refine ⟨rfl, rfl, _, rfl, ?_⟩
  decide +kernel

end RadiusAuth
end VoipBill
