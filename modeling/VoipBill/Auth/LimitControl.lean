import VoipBill.Auth.AnalyzeCall

/-!
# Limit control against authorisation

`ThreadLimitControl::limitControlKillNeeded` applies the limits of an account to
a call in progress, with the policy of `analyzeCall` written a second time.

Both are first reduced to a condition on the sums without the call
(`limitControlKillNeeded_iff`, `analyzeCall_accept_iff`).  They disagree in two
kinds of calls: a fully blocked account is only refused in the number branch of
`analyzeCall`, and a call without cost is let through there when the credit
limit is used up, while the limit control kills it.
-/

namespace VoipBill

open Lib

namespace SpentSums

def spentBalanceSum (sums : SpentSums) : ℚ :=
  sums.sumBalance + sums.sumBalance2 + sums.globalBalanceSum

def spentDaySum (sums : SpentSums) : ℚ := sums.sumDay + sums.sumDay2 + sums.globalDaySum

def spentDayMNSum (sums : SpentSums) : ℚ :=
  sums.sumMNDay + sums.sumMNDay2 + sums.globalDayMNSum

end SpentSums

namespace LimitControl

/-- `prepared` tells whether the repository could be read; `run` returns before
the first call if it cannot. -/
def limitControlKillNeeded (prepared : Bool) (req : AuthRequest) : Bool :=
  let autoLockFinance := if prepared then req.autoLockFinance else true
  if req.call.isServiceNumber then false
  else if req.isEmergencyCall then false
  else if req.call.accountId = 0 then false
  else
    match req.account with
    | none => false
    | some client =>
        if client.isBlocked then true
        else if req.call.trunkServiceId ≠ 0 then
          client.isConsumedCreditLimit req.sums.spentBalanceSum && autoLockFinance
        else if req.call.numberServiceId ≠ 0 ∧ req.call.orig then
          if !req.call.isLocal && client.disabled then true
          else if !req.call.isLocal && client.isConsumedCreditLimit req.sums.spentBalanceSum &&
              autoLockFinance then true
          else if req.call.isInternational &&
              client.isConsumedDailyMNLimit req.sums.spentDayMNSum then true
          else if !req.call.isLocal && client.isConsumedDailyLimit req.sums.spentDaySum then true
          else false
        else
          false

/-! ## Limits and the cost of the call -/

theorem isConsumedCreditLimit_anti (client : Client) {v w : ℚ} (h : v ≤ w)
    (hw : client.isConsumedCreditLimit w = true) : client.isConsumedCreditLimit v = true := by
  simp only [Client.isConsumedCreditLimit, Bool.and_eq_true, decide_eq_true_eq] at hw ⊢
  exact ⟨hw.1, by linarith [hw.2]⟩

theorem isConsumedDailyLimit_anti (client : Client) {v w : ℚ} (h : v ≤ w)
    (hw : client.isConsumedDailyLimit w = true) : client.isConsumedDailyLimit v = true := by
  simp only [Client.isConsumedDailyLimit, Bool.and_eq_true, Bool.or_eq_true,
    decide_eq_true_eq] at hw ⊢
  exact ⟨hw.1, hw.2.imp (fun hlimit => ⟨hlimit.1, by linarith [hlimit.2]⟩) id⟩

theorem isConsumedDailyMNLimit_anti (client : Client) {v w : ℚ} (h : v ≤ w)
    (hw : client.isConsumedDailyMNLimit w = true) : client.isConsumedDailyMNLimit v = true := by
  simp only [Client.isConsumedDailyMNLimit, Bool.and_eq_true, Bool.or_eq_true,
    decide_eq_true_eq] at hw ⊢
  exact ⟨hw.1, hw.2.imp (fun hlimit => ⟨hlimit.1, by linarith [hlimit.2]⟩) id⟩

/-- The own cost of a call only lowers the sum, so it is refused for a limit
exactly when the limit is used up without it. -/
theorem isLowBalance_fst {checkLimit : ℚ → Bool}
    (hanti : ∀ {v w : ℚ}, v ≤ w → checkLimit w = true → checkLimit v = true)
    {req : AuthRequest} (hcost : req.call.cost ≤ 0) {spent : ℚ} (without : ℚ)
    (hspent : spent - req.call.cost = without) (reason : RejectReason)
    (blocked : AccountIdsBlocked) :
    (RadiusAuth.isLowBalance checkLimit reason req spent blocked).1 = checkLimit without := by
  have hle : spent ≤ without := by linarith
  unfold RadiusAuth.isLowBalance
  rw [hspent]
  split
  case isTrue =>
    split
    case isTrue hwithout => exact hwithout.symm
    case isFalse hwithout => simpa using hwithout
  case isFalse hwith =>
    cases hwithout : checkLimit without with
    | true => exact absurd (hanti hle hwithout) hwith
    | false => rfl

section

variable {req : AuthRequest} {client : Client} {blocked : AccountIdsBlocked}

theorem creditCheck_fst (hcost : req.call.cost ≤ 0) :
    (RadiusAuth.creditCheck req client blocked).1 =
      client.isConsumedCreditLimit req.sums.spentBalanceSum := by
  refine isLowBalance_fst (isConsumedCreditLimit_anti client) hcost _ ?_ _ _
  simp only [AuthRequest.spentBalanceSum, SpentSums.spentBalanceSum]
  ring

theorem dayCheck_fst (hcost : req.call.cost ≤ 0) :
    (RadiusAuth.dayCheck req client blocked).1 =
      (!req.call.isLocal && client.isConsumedDailyLimit req.sums.spentDaySum) := by
  unfold RadiusAuth.dayCheck
  split
  case isTrue hlocal => simp [hlocal]
  case isFalse hlocal =>
    rw [isLowBalance_fst (isConsumedDailyLimit_anti client) hcost
      req.sums.spentDaySum (by
        simp only [AuthRequest.spentDaySum, SpentSums.spentDaySum]
        ring)]
    simp [hlocal]

theorem dayMNCheck_fst (hcost : req.call.cost ≤ 0) :
    (RadiusAuth.dayMNCheck req client blocked).1 =
      (req.call.isInternational && client.isConsumedDailyMNLimit req.sums.spentDayMNSum) := by
  unfold RadiusAuth.dayMNCheck
  split
  case isTrue hmn =>
    rw [isLowBalance_fst (isConsumedDailyMNLimit_anti client) hcost
      req.sums.spentDayMNSum (by
        simp only [AuthRequest.spentDayMNSum, SpentSums.spentDayMNSum]
        ring)]
    simp [hmn]
  case isFalse hmn => simp [hmn]

/-! ## Both policies as conditions on the sums -/

/-- Why the limit control kills a call that is charged by number. -/
def NumberKill (req : AuthRequest) (client : Client) : Prop :=
  (req.call.isLocal = false ∧
    (client.disabled = true ∨
      (client.isConsumedCreditLimit req.sums.spentBalanceSum = true ∧
        req.autoLockFinance = true) ∨
      client.isConsumedDailyLimit req.sums.spentDaySum = true)) ∨
    (req.call.isInternational = true ∧
      client.isConsumedDailyMNLimit req.sums.spentDayMNSum = true)

theorem limitControlKillNeeded_iff (hemergency : req.isEmergencyCall = false)
    (hservice : req.call.isServiceNumber = false) (hid : req.call.accountId ≠ 0)
    (haccount : req.account = some client) (horig : req.call.orig = true) :
    limitControlKillNeeded true req = true ↔
      client.isBlocked = true ∨
      (if req.call.trunkServiceId ≠ 0 then
        client.isConsumedCreditLimit req.sums.spentBalanceSum = true ∧ req.autoLockFinance = true
      else req.call.numberServiceId ≠ 0 ∧ NumberKill req client) := by
  simp only [limitControlKillNeeded, hemergency, hservice, hid, haccount, horig]
  cases hblocked : client.isBlocked with
  | true => simp
  | false =>
      by_cases htrunk : req.call.trunkServiceId = 0
      · by_cases hnumber : req.call.numberServiceId = 0
        · simp [htrunk, hnumber]
        · simp only [htrunk, NumberKill]
          cases req.call.isLocal <;> cases client.disabled <;>
            cases client.isConsumedCreditLimit req.sums.spentBalanceSum <;>
            cases req.autoLockFinance <;>
            cases client.isConsumedDailyLimit req.sums.spentDaySum <;> simp
      · simp [htrunk]

/-- Why `analyzeCall` does not accept a call that is charged by number. -/
def NumberRefused (req : AuthRequest) (client : Client) : Prop :=
  (client.isConsumedCreditLimit req.sums.spentBalanceSum = true ∧
    0.000001 < |req.call.cost| ∧ req.autoLockFinance = true) ∨
  (req.call.isLocal = false ∧
    (client.isConsumedDailyLimit req.sums.spentDaySum = true ∨ client.disabled = true)) ∨
  (req.call.isInternational = true ∧
    client.isConsumedDailyMNLimit req.sums.spentDayMNSum = true) ∨
  client.isBlocked = true

theorem analyzeNumber_accept_iff (hcost : req.call.cost ≤ 0) :
    (RadiusAuth.analyzeNumber req client blocked).1 = .accept ↔ ¬ NumberRefused req client := by
  simp only [RadiusAuth.analyzeNumber, creditCheck_fst hcost, dayCheck_fst hcost,
    dayMNCheck_fst hcost, NumberRefused]
  split
  case isTrue h => simp [h]
  case isFalse hcredit =>
    split
    case isTrue h =>
      rw [Bool.and_eq_true, Bool.not_eq_true'] at h
      simp [h]
    case isFalse hday =>
      split
      case isTrue h =>
        rw [Bool.and_eq_true] at h
        simp [h]
      case isFalse hmn =>
        split
        case isTrue h => simp [h]
        case isFalse hblocked =>
          split
          case isTrue h =>
            rw [Bool.not_eq_true'] at h
            simp [h]
          case isFalse hdisabled => simp_all

theorem analyzeCall_accept_iff (htech : req.origTrunk.techTrunk = false)
    (hpstn : req.origTrunk.pstnTrunk = false) (hemergency : req.isEmergencyCall = false)
    (hid : req.call.accountId ≠ 0) (haccount : req.account = some client)
    (horig : req.call.orig = true) (hcost : req.call.cost ≤ 0) :
    (RadiusAuth.analyzeCall req ∅).1 = .accept ↔
      if req.call.trunkServiceId ≠ 0 then
        ¬ (client.isConsumedCreditLimit req.sums.spentBalanceSum = true ∧
          req.autoLockFinance = true)
      else req.call.numberServiceId ≠ 0 → ¬ NumberRefused req client := by
  have hempty : (∅ : AccountIdsBlocked)[req.call.accountId]? = none := by simp
  simp only [RadiusAuth.analyzeCall, htech, hpstn, hemergency, hid, haccount, hempty,
    Bool.or_self, Bool.false_eq_true, if_false, RadiusAuth.analyzeLimits, horig, and_true]
  split
  case isTrue =>
    simp only [creditCheck_fst hcost]
    split
    case isTrue h => simp [h]
    case isFalse h => simp [h]
  case isFalse =>
    split
    case isTrue hnumber =>
      rw [analyzeNumber_accept_iff hcost]
      simp [hnumber]
    case isFalse hnumber => simp_all

/-- A call of a fully blocked account that no branch of `analyzeCall` refuses: a
call by trunk whose credit limit does not lock it, or one by no service. -/
def BlockedButAdmitted (req : AuthRequest) (client : Client) : Prop :=
  client.isBlocked = true ∧
    if req.call.trunkServiceId ≠ 0 then
      ¬ (client.isConsumedCreditLimit req.sums.spentBalanceSum = true ∧
        req.autoLockFinance = true)
    else req.call.numberServiceId = 0

/-- A long-distance call by number that costs nothing, of an account whose credit
limit is used up and that nothing else stops. -/
def FreeButKilled (req : AuthRequest) (client : Client) : Prop :=
  client.isBlocked = false ∧ req.call.trunkServiceId = 0 ∧ req.call.numberServiceId ≠ 0 ∧
    req.call.isLocal = false ∧ |req.call.cost| ≤ 0.000001 ∧
    client.isConsumedCreditLimit req.sums.spentBalanceSum = true ∧ req.autoLockFinance = true ∧
    client.disabled = false ∧ client.isConsumedDailyLimit req.sums.spentDaySum = false ∧
    (req.call.isInternational = true →
      client.isConsumedDailyMNLimit req.sums.spentDayMNSum = false)

/-- The only reason that kills and does not refuse is the credit limit of a call
without cost. -/
theorem freeButKilled_iff :
    FreeButKilled req client ↔
      req.call.trunkServiceId = 0 ∧ req.call.numberServiceId ≠ 0 ∧ NumberKill req client ∧
        ¬ NumberRefused req client := by
  constructor
  · rintro ⟨hblocked, htrunk, hnumber, hlocal, hcost, hcredit, hlock, hdisabled, hday, hmn⟩
    refine ⟨htrunk, hnumber, Or.inl ⟨hlocal, Or.inr (Or.inl ⟨hcredit, hlock⟩)⟩, ?_⟩
    rintro (h | ⟨-, h | h⟩ | ⟨hint, h⟩ | h)
    · exact absurd h.2.1 (not_lt.mpr hcost)
    · rw [hday] at h
      exact absurd h (by simp)
    · rw [hdisabled] at h
      exact absurd h (by simp)
    · rw [hmn hint] at h
      exact absurd h (by simp)
    · rw [hblocked] at h
      exact absurd h (by simp)
  · rintro ⟨htrunk, hnumber, hkill, hrefused⟩
    simp only [NumberRefused, not_or, not_and, Bool.not_eq_true] at hrefused
    obtain ⟨hpaid, hlong, hmn, hblocked⟩ := hrefused
    obtain ⟨hlocal, hreason⟩ : req.call.isLocal = false ∧ (client.disabled = true ∨
        (client.isConsumedCreditLimit req.sums.spentBalanceSum = true ∧
          req.autoLockFinance = true) ∨
        client.isConsumedDailyLimit req.sums.spentDaySum = true) := by
      refine hkill.resolve_right fun ⟨hint, h⟩ => ?_
      rw [hmn hint] at h
      exact absurd h (by simp)
    obtain ⟨hday, hdisabled⟩ := hlong hlocal
    have hcredit : client.isConsumedCreditLimit req.sums.spentBalanceSum = true ∧
        req.autoLockFinance = true := by
      simpa [hday, hdisabled] using hreason
    have hfree : |req.call.cost| ≤ 0.000001 := by
      by_contra hcost
      have hoff := hpaid hcredit.1 (not_le.mp hcost)
      rw [hcredit.2] at hoff
      exact absurd hoff (by simp)
    exact ⟨hblocked, htrunk, hnumber, hlocal, hfree, hcredit.1, hcredit.2, hdisabled, hday, hmn⟩

/-- **Authorisation and limit control.**  A call that the limit control would
kill is not accepted, except for the two kinds of calls above. -/
theorem not_accept_of_kill_iff (htech : req.origTrunk.techTrunk = false)
    (hpstn : req.origTrunk.pstnTrunk = false) (hemergency : req.isEmergencyCall = false)
    (hservice : req.call.isServiceNumber = false) (hid : req.call.accountId ≠ 0)
    (haccount : req.account = some client) (horig : req.call.orig = true)
    (hcost : req.call.cost ≤ 0) :
    (limitControlKillNeeded true req = true → (RadiusAuth.analyzeCall req ∅).1 ≠ .accept) ↔
      ¬ BlockedButAdmitted req client ∧ ¬ FreeButKilled req client := by
  have hkill := limitControlKillNeeded_iff hemergency hservice hid haccount horig
  have haccept := analyzeCall_accept_iff htech hpstn hemergency hid haccount horig hcost
  refine (imp_congr hkill (not_congr haccept)).trans ?_
  rw [freeButKilled_iff, BlockedButAdmitted]
  by_cases htrunk : req.call.trunkServiceId = 0
  case neg =>
    simp only [htrunk, ne_eq, not_false_eq_true, if_true, false_and, and_true]
    tauto
  case pos =>
    by_cases hnumber : req.call.numberServiceId = 0
    case pos =>
      simp only [htrunk, hnumber, ne_eq, not_true_eq_false, if_false, false_and, or_false,
        false_implies, and_false, not_false_eq_true, and_true]
    case neg =>
      have hblocked : client.isBlocked = true → NumberRefused req client :=
        fun h => Or.inr (Or.inr (Or.inr h))
      simp only [htrunk, hnumber, ne_eq, not_true_eq_false, if_false, not_false_eq_true, true_and,
        true_implies, and_false]
      tauto

end

/-- An originating call of account 7 over a trunk of the account. -/
def trunkCall (client : Client) : AuthRequest where
  account := some client
  call := { accountId := 7, trunkServiceId := 5, orig := true, cost := -1 }
  instanceSettings := some { autoLockFinance := true }

/-- An account without credit: both refuse the call. -/
theorem not_accept_of_kill_of_noCredit :
    limitControlKillNeeded true (trunkCall { id := 7, balance := -1 }) = true ∧
      (RadiusAuth.analyzeCall (trunkCall { id := 7, balance := -1 }) ∅).1 ≠ .accept := by
  have hkill : limitControlKillNeeded true (trunkCall { id := 7, balance := -1 }) = true := by
    decide +kernel
  refine ⟨hkill, (not_accept_of_kill_iff rfl rfl rfl rfl (by decide) rfl rfl ?_).mpr ?_ hkill⟩
  · decide +kernel
  · exact ⟨fun h => absurd h.1 (by decide), fun h => absurd h.2.1 (by decide)⟩

/-- A fully blocked account with money: its call over a trunk is accepted and
then killed. -/
theorem accept_and_kill_of_blocked :
    ∃ req : AuthRequest, req.call.orig = true ∧ req.call.cost ≤ 0 ∧
      req.call.isServiceNumber = false ∧ req.isEmergencyCall = false ∧
      req.origTrunk.techTrunk = false ∧ req.origTrunk.pstnTrunk = false ∧
      limitControlKillNeeded true req = true ∧ (RadiusAuth.analyzeCall req ∅).1 = .accept := by
  refine ⟨trunkCall { id := 7, balance := 100, isBlocked := true }, ?_⟩
  decide +kernel

end LimitControl
end VoipBill
