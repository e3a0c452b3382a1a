import VoipBill.Billing.PricingRun

/-!
# What is found out about a leg

Everything that decides how a leg is charged can be read off the tables, the
CDR, the numbers of the leg and the counters before `calc` runs.  This file says
how, with pure functions, and that `calc` gets there:

* `legObjects`: the trunk of the leg, with its server and the settings of the
  server;
* `legNumbers`: the numbers after preprocessing and redirection;
* `numberAccount`: the number service and the account of a leg by number.

`beforeCharging_cases` and `beforeChargeByNumber_cases` split the pricing of a leg: it
stops with a `CalcException` before anything is charged, or goes on from a state
that is described in full.
-/

namespace VoipBill

open Lib Lib.Hoare

namespace PricingState

/-- The numbers of the leg. -/
def numbers (s : PricingState) : Int × Int := (s.callInfo.call.srcNumber, s.callInfo.call.dstNumber)

def withNumbers (s : PricingState) (numbers : Int × Int) : PricingState :=
  { s with
    callInfo :=
      { s.callInfo with
        call := { s.callInfo.call with srcNumber := numbers.1, dstNumber := numbers.2 } } }

/-- The leg on its trunk. -/
def withTrunk (s : PricingState) (trunk : Trunk) (server : Server) (settings : InstanceSettings) :
    PricingState :=
  { s with
    callInfo :=
      { s.callInfo with
        trunk := some trunk
        server := some server
        instanceSettings := some settings
        call :=
          { s.callInfo.call with
            serverId := server.id
            trunkId := trunk.id
            our := trunk.ourTrunk || trunk.authByNumber } } }

/-- The leg under its number service. -/
def withServiceNumber (s : PricingState) (serviceNumber : ServiceNumber) : PricingState :=
  { s with
    callInfo :=
      { s.callInfo with
        serviceNumber := some serviceNumber
        call := { s.callInfo.call with numberServiceId := serviceNumber.id } } }

/-- The leg with the service of its trunk, if there is one. -/
def withServiceTrunk (s : PricingState) (found : Option ServiceTrunk) : PricingState :=
  { s with
    callInfo :=
      { s.callInfo with
        serviceTrunk := found
        call :=
          { s.callInfo.call with
            trunkServiceId := found.elim s.callInfo.call.trunkServiceId (·.id) } } }

/-- The leg under its account. -/
def withAccount (s : PricingState) (account : Client) : PricingState :=
  { s with
    callInfo :=
      { s.callInfo with
        account := some account
        dt :=
          { day := getTday s.callInfo.call.connectTime account.timezoneOffset
            month := getTmonth s.callInfo.call.connectTime account.timezoneOffset }
        dtUtc :=
          { day := getTday s.callInfo.call.connectTime 0
            month := getTmonth s.callInfo.call.connectTime 0 }
        call :=
          { s.callInfo.call with
            accountId := account.id
            accountVersion := account.accountVersion } } }

theorem bill_unclassified (s : PricingState) : s.unclassified.bill = s.bill := rfl

theorem bill_withTrunk (s : PricingState) (trunk : Trunk) (server : Server)
    (settings : InstanceSettings) : (s.withTrunk trunk server settings).bill = s.bill := rfl

theorem bill_withServiceNumber (s : PricingState) (serviceNumber : ServiceNumber) :
    (s.withServiceNumber serviceNumber).bill = s.bill := rfl

theorem bill_withServiceTrunk (s : PricingState) (found : Option ServiceTrunk) :
    (s.withServiceTrunk found).bill = s.bill := rfl

theorem bill_withAccount (s : PricingState) (account : Client) :
    (s.withAccount account).bill = s.bill := rfl

end PricingState

namespace BillingCall

variable (env : PricingEnv)

/-! ## Numbers and destinations -/

/-- The rules of the trunk complete the numbers. -/
def preprocessedNumbers (trunk : Trunk) (numbers : Int × Int) : Int × Int :=
  let rules := env.repository.data.trunkNumberPreprocessing trunk.id
  ((findPreprocessing rules true env.cdr.srcNoa env.cdr.srcNumber).elim numbers.1
      fun rule => prependDigits rule numbers.1,
    (findPreprocessing rules false env.cdr.dstNoa env.cdr.dstNumber).elim numbers.2
      fun rule => prependDigits rule numbers.2)

/-- The number that stands for a technical number, if it stands for any. -/
def replacementNumber (number : Int) : Int :=
  match env.repository.getServiceNumberByTechnicalNumber number with
  | some serviceNumber => if 0 < atoll serviceNumber.did then atoll serviceNumber.did else number
  | none => number

/-- The calling number of a redirected call, or the called one of an 800 number. -/
def redirectedNumbers (trunk : Trunk) (numbers : Int × Int) : Int × Int :=
  if trunk.origRedirectNumber then
    if 0 < atoll env.cdr.redirectNumber then (lineNumber env.cdr.redirectNumber, numbers.2)
    else numbers
  else if trunk.origRedirectNumber7800 then (numbers.1, replacementNumber env numbers.2)
  else numbers

/-- The numbers a leg is charged by. -/
def legNumbers (trunk : Trunk) (orig : Bool) (numbers : Int × Int) : Int × Int :=
  if orig then redirectedNumbers env trunk (preprocessedNumbers env trunk numbers) else numbers

/-- The destinations of a number, by the loaded number ranges. -/
def destinationsOf (ranges : IntMap NNPNumberRange) (num : Int) : List Int :=
  env.repository.getNNPDestinationByNumberRange
    ((env.repository.data.nnpNumberRange num).bind fun row => ranges[row]?)

variable {env}

/-- The destinations of a range are those of its id. -/
theorem getNNPDestinationByNumberRange_congr {range range' : NNPNumberRange}
    (h : range.id = range'.id) :
    env.repository.getNNPDestinationByNumberRange (some range) =
      env.repository.getNNPDestinationByNumberRange (some range') := by
  simp only [Repository.getNNPDestinationByNumberRange, h]

theorem completeRange_id (phoneNumber : Int) (range : NNPNumberRange) :
    (completeRange env phoneNumber range).id = range.id := by
  simp only [completeRange]
  split <;> split <;> rfl

/-- Completing the country of a range changes no destination. -/
theorem destinationsOf_insert {ranges : IntMap NNPNumberRange} {row : Int}
    {range : NNPNumberRange} (h : ranges[row]? = some range) (phoneNumber num : Int) :
    destinationsOf env (ranges.insert row (completeRange env phoneNumber range)) num =
      destinationsOf env ranges num := by
  unfold destinationsOf
  cases env.repository.data.nnpNumberRange num with
  | none => rfl
  | some row' =>
      by_cases hrow : row = row'
      · subst hrow
        simp only [Option.bind_some, IntMap.getElem?_insert, if_true, h]
        exact getNNPDestinationByNumberRange_congr (completeRange_id phoneNumber range)
      · simp only [Option.bind_some, IntMap.getElem?_insert_of_ne _ hrow]

/-! ## Classification -/

section Classification

variable {trunk : Trunk} {settings : InstanceSettings} {numbers : Int × Int}
  {ranges : IntMap NNPNumberRange} {s : PricingState}

theorem exec_numberPreprocessing (h : s.callInfo.trunk = some trunk) :
    exec (numberPreprocessing env) s =
      (.ok (), s.withNumbers (preprocessedNumbers env trunk s.numbers)) := by
  have hcallInfo : exec getCallInfo s = (.ok s.callInfo, s) := rfl
  unfold numberPreprocessing preprocessedNumbers
  rw [exec_bind_ok hcallInfo, h, exec_bind_ok (show exec (deref (some trunk)) s = _ from rfl)]
  dsimp only
  generalize findPreprocessing _ true _ _ = srcRule
  generalize findPreprocessing _ false _ _ = dstRule
  cases srcRule with
  | none =>
      cases dstRule with
      | none => rfl
      | some rule => rfl
  | some rule =>
      cases dstRule with
      | none => rfl
      | some rule' => rfl

theorem exec_processRedirectNumber (h : s.callInfo.trunk = some trunk)
    (horig : s.callInfo.call.orig = true) :
    exec (processRedirectNumber env) s =
      (.ok (), s.withNumbers (redirectedNumbers env trunk s.numbers)) := by
  have hcallInfo : exec getCallInfo s = (.ok s.callInfo, s) := rfl
  have hcall : exec getCall s = (.ok s.callInfo.call, s) := rfl
  have hremote : getRemoteNumber s.callInfo.call = s.callInfo.call.dstNumber := by
    rw [getRemoteNumber, horig, if_pos rfl]
  unfold processRedirectNumber redirectedNumbers
  rw [exec_bind_ok hcallInfo, h, exec_bind_ok (show exec (deref (some trunk)) s = _ from rfl)]
  by_cases hredirect : trunk.origRedirectNumber = true
  · rw [if_pos hredirect, if_pos hredirect]
    by_cases hpos : 0 < atoll env.cdr.redirectNumber
    · simp only [hpos, decide_true]
      rfl
    · simp only [hpos, decide_false]
      rfl
  rw [if_neg hredirect, if_neg hredirect]
  by_cases h7800 : trunk.origRedirectNumber7800 = true
  · rw [if_pos h7800, h7800]
    show exec (getCall >>= _) s = _
    rw [exec_bind_ok hcall, hremote]
    show exec (whenSome _ _) s =
      (_, s.withNumbers (_, replacementNumber env s.callInfo.call.dstNumber))
    unfold replacementNumber
    cases env.repository.getServiceNumberByTechnicalNumber s.callInfo.call.dstNumber with
    | none => rfl
    | some serviceNumber =>
        show exec (onlyIf (decide (0 < atoll serviceNumber.did)) _) s = _
        by_cases hpos : 0 < atoll serviceNumber.did
        · simp only [hpos, if_true, decide_true]
          rfl
        · simp only [hpos, if_false, decide_false]
          rfl
  · rw [if_neg h7800, Bool.eq_false_iff.mpr h7800]
    rfl

variable (env trunk settings numbers ranges)

/-- A leg on its trunk with these numbers, and ranges with the same destinations. -/
structure OnTrunk (s : PricingState) : Prop where
  trunk : s.callInfo.trunk = some trunk
  settings : s.callInfo.instanceSettings = some settings
  numbers : s.numbers = numbers
  destinations : ∀ num, destinationsOf env s.numberRanges num = destinationsOf env ranges num

variable {env trunk settings numbers ranges}

theorem triple_processSignalingCallId :
    Triple (OnTrunk env trunk settings numbers ranges) (processSignalingCallId env)
      (fun _ => OnTrunk env trunk settings numbers ranges) fun _ => False := by
  unfold processSignalingCallId
  refine triple_getCallInfo fun callInfo => triple_whenSome (fun trunk' _ => ?_) fun _ s hs => hs.1
  refine triple_onlyIf (fun _ => ?_) fun _ s hs => hs.1
  exact triple_modifyCall fun s hs => { hs.1 with }

theorem triple_processGeo :
    Triple (OnTrunk env trunk settings numbers ranges) (processGeo env)
      (fun _ => OnTrunk env trunk settings numbers ranges) fun _ => False := by
  unfold processGeo
  refine triple_getCall fun call => ?_
  refine Triple.pre (P := OnTrunk env trunk settings numbers ranges) ?_ fun s hs => hs.1
  refine triple_bind (R := fun _ => OnTrunk env trunk settings numbers ranges)
    (triple_whenSome (fun _ _ => triple_modifyCall fun s hs => { hs with }) fun _ s hs => hs)
    fun _ => ?_
  exact triple_whenSome (fun _ _ => triple_modifyCall fun s hs => { hs with }) fun _ s hs => hs

/-- The settings of the server are there when the distance of a call is needed. -/
theorem triple_getDest (geoId : Int) :
    Triple (OnTrunk env trunk settings numbers ranges) (getDest env geoId)
      (fun _ => OnTrunk env trunk settings numbers ranges) fun _ => False := by
  unfold getDest
  refine triple_bind (R := fun _ => OnTrunk env trunk settings numbers ranges)
    (triple_modifyCallInfo fun s hs => { hs with }) fun _ => ?_
  split
  case h_1 => exact triple_pure fun s hs => hs
  case h_2 =>
    refine triple_getCallInfo fun callInfo => ?_
    refine triple_of_fact (fun s hs => hs.2 ▸ hs.1.settings) fun hsettings => ?_
    rw [hsettings]
    refine triple_deref_some (triple_getCall fun call => ?_)
    exact triple_pure fun s hs => hs.1.1

theorem triple_processDestinations :
    Triple (OnTrunk env trunk settings numbers ranges) (processDestinations env)
      (fun _ => OnTrunk env trunk settings numbers ranges) fun _ => False := by
  unfold processDestinations
  refine triple_getCall fun call => ?_
  refine Triple.pre (P := OnTrunk env trunk settings numbers ranges) ?_ fun s hs => hs.1
  refine triple_bind (R := fun _ => OnTrunk env trunk settings numbers ranges)
    (triple_whenSome (fun _ _ => triple_modifyCall fun s hs => { hs with }) fun _ s hs => hs)
    fun _ => ?_
  refine triple_whenSome (fun geoPrefix _ => ?_) fun _ s hs => hs
  refine triple_bind (triple_getDest geoPrefix.geoId) fun _ => ?_
  exact triple_modifyCall fun s hs => { hs with }

theorem triple_processNNP :
    Triple (OnTrunk env trunk settings numbers ranges) (processNNP env)
      (fun _ => OnTrunk env trunk settings numbers ranges) fun _ => False := by
  unfold processNNP
  refine triple_getCall fun call => ?_
  refine Triple.pre (P := OnTrunk env trunk settings numbers ranges) ?_ fun s hs => hs.1
  refine triple_bind (R := fun found s => OnTrunk env trunk settings numbers ranges s ∧
    found = (env.repository.data.nnpNumberRange (getNumber call)).bind
      fun row => s.numberRanges[row]?) (fun s hs => ⟨hs, rfl⟩) fun found => ?_
  split
  case h_1 _ _ row range hrow =>
    refine triple_bind (R := fun _ => OnTrunk env trunk settings numbers ranges)
      (triple_modify fun s hs => ?_) fun _ => ?_
    · have hstored : s.numberRanges[row]? = some range := by
        rw [hrow] at hs
        exact hs.2.symm
      refine { hs.1 with destinations := fun num => ?_ }
      exact (destinationsOf_insert hstored _ num).trans (hs.1.destinations num)
    · refine triple_bind (R := fun _ => OnTrunk env trunk settings numbers ranges)
        (triple_modifyCallInfo fun s hs => { hs with }) fun _ => ?_
      exact triple_modifyCall fun s hs => { hs with }
  case h_2 => exact triple_modifyCall fun s hs => { hs.1 with }

/-- Completing the numbers returns, and says which numbers the leg is left with. -/
theorem exec_numbers (h : s.callInfo.trunk = some trunk) :
    exec (onlyIf s.callInfo.call.orig do
        numberPreprocessing env
        processRedirectNumber env) s =
      (.ok (), s.withNumbers (legNumbers env trunk s.callInfo.call.orig s.numbers)) := by
  cases horig : s.callInfo.call.orig with
  | false => rfl
  | true =>
      show exec (numberPreprocessing env >>= fun _ => processRedirectNumber env) s = _
      rw [exec_bind_ok (exec_numberPreprocessing h)]
      exact exec_processRedirectNumber h horig

/-- **Classification returns**, with the numbers the leg is charged by. -/
theorem exec_classification (htrunk : s.callInfo.trunk = some trunk)
    (hsettings : s.callInfo.instanceSettings = some settings) :
    ∃ s', exec (classification env s.callInfo.call.orig) s = (.ok (), s') ∧
      s'.unclassified = s.unclassified ∧
      OnTrunk env trunk settings (legNumbers env trunk s.callInfo.call.orig s.numbers)
        s.numberRanges s' := by
  have hstart : OnTrunk env trunk settings s.numbers s.numberRanges s :=
    ⟨htrunk, hsettings, rfl, fun _ => rfl⟩
  obtain ⟨_, s₁, hsignalling, hs₁⟩ := triple_processSignalingCallId.returns hstart
  have horig₁ : s₁.callInfo.call.orig = s.callInfo.call.orig := by
    have hkept := keeps_processSignalingCallId env s
    rw [hsignalling] at hkept
    exact congrArg (fun p => p.callInfo.call.orig) hkept
  have hnumbers := @exec_numbers env _ _ hs₁.trunk
  rw [horig₁, hs₁.numbers] at hnumbers
  -- the numbers are complete; the other steps keep them
  have hrest : Triple (OnTrunk env trunk settings
      (legNumbers env trunk s.callInfo.call.orig s.numbers) s.numberRanges)
      (do
        processGeo env
        processDestinations env
        processNNP env
        modifyCallInfo fun callInfo =>
          { callInfo with
            callIncomingFromMegatrunk := isNeedForceCalcByNumber env s.callInfo.call.orig })
      (fun _ => OnTrunk env trunk settings
        (legNumbers env trunk s.callInfo.call.orig s.numbers) s.numberRanges)
      fun _ => False := by
    refine triple_bind triple_processGeo fun _ => ?_
    refine triple_bind triple_processDestinations fun _ => ?_
    refine triple_bind triple_processNNP fun _ => ?_
    exact triple_modifyCallInfo fun s hs => { hs with }
  obtain ⟨_, s₂, hexec, hs₂⟩ := hrest.returns
    (s := s₁.withNumbers (legNumbers env trunk s.callInfo.call.orig s.numbers))
    { hs₁ with numbers := rfl }
  have hwhole : exec (classification env s.callInfo.call.orig) s = (.ok (), s₂) := by
    unfold classification
    rw [exec_bind_ok hsignalling, exec_bind_ok hnumbers]
    exact hexec
  refine ⟨s₂, hwhole, ?_, hs₂⟩
  have hkept := keeps_unclassified_classification env s.callInfo.call.orig s
  rw [hwhole] at hkept
  exact hkept

end Classification

/-! ## The trunk of the leg -/

section Trunk

/-- The trunk of the leg, its server and the settings of the server. -/
def legObjects (env : PricingEnv) (orig : Bool) : Option (Trunk × Server × InstanceSettings) := do
  let trunk ← legTrunk env orig
  let server ← env.repository.data.server trunk.serverId
  let settings ← env.repository.data.instanceSettings trunk.serverId
  return (trunk, server, settings)

variable {s : PricingState} {trunk : Trunk} {server : Server} {settings : InstanceSettings}

theorem legObjects_eq_some {orig : Bool}
    (h : legObjects env orig = some (trunk, server, settings)) :
    legTrunk env orig = some trunk ∧ env.repository.data.server trunk.serverId = some server ∧
      env.repository.data.instanceSettings trunk.serverId = some settings := by
  obtain ⟨trunk', htrunk, h⟩ := Option.bind_eq_some_iff.mp h
  obtain ⟨server', hserver, h⟩ := Option.bind_eq_some_iff.mp h
  obtain ⟨settings', hsettings, h⟩ := Option.bind_eq_some_iff.mp h
  cases h
  exact ⟨htrunk, hserver, hsettings⟩

theorem getTrunkByName_getRoute (s : PricingState) :
    env.repository.getTrunkByName (getRoute env.cdr s.callInfo.call) env.origRegion =
      legTrunk env s.callInfo.call.orig := rfl

/-- If trunk, server and settings are found, the leg is on its trunk. -/
theorem exec_setupTrunk_some
    (h : legObjects env s.callInfo.call.orig = some (trunk, server, settings)) :
    exec (setupTrunk env) s = (.ok (), s.withTrunk trunk server settings) := by
  obtain ⟨htrunk, hserver, hsettings⟩ := legObjects_eq_some h
  simp only [setupTrunk, setupTrunkServer, exec_bind, exec_getCall, exec_modifyCallInfo,
    exec_modifyCall, getTrunkByName_getRoute, htrunk, hserver, hsettings, exec_orThrow_some,
    exec_pure, PricingState.withTrunk]

/-- If one of them is missing, pricing stops there. -/
theorem exec_setupTrunk_none (h : legObjects env s.callInfo.call.orig = none) :
    ∃ message, (exec (setupTrunk env) s).1 = .error (.calcException message) := by
  simp only [setupTrunk, setupTrunkServer, exec_bind, exec_getCall, exec_modifyCallInfo,
    exec_modifyCall, getTrunkByName_getRoute]
  cases htrunk : legTrunk env s.callInfo.call.orig with
  | none => exact ⟨_, rfl⟩
  | some trunk =>
      simp only [exec_orThrow_some]
      cases hserver : env.repository.data.server trunk.serverId with
      | none => exact ⟨_, rfl⟩
      | some server =>
          simp only [exec_orThrow_some]
          cases hsettings : env.repository.data.instanceSettings trunk.serverId with
          | none => exact ⟨_, rfl⟩
          | some settings => exact absurd h (by simp [legObjects, htrunk, hserver, hsettings])

/-- A leg of which everything has been found out that does not depend on how it is
charged; `s₀` is the state pricing started in. -/
structure Classified (env : PricingEnv) (s₀ : PricingState) (trunk : Trunk) (server : Server)
    (s : PricingState) : Prop where
  bill : s.bill = s₀.bill
  numbers : s.numbers = legNumbers env trunk s₀.callInfo.call.orig s₀.numbers
  onTrunk : s.callInfo.trunk = some trunk
  onServer : s.callInfo.server = some server
  serviceNumber : s.callInfo.serviceNumber = s₀.callInfo.serviceNumber
  serviceTrunk : s.callInfo.serviceTrunk = s₀.callInfo.serviceTrunk
  destinations : ∀ num,
    destinationsOf env s.numberRanges num = destinationsOf env s₀.numberRanges num

/-- What `tariffication` does before the leg is charged. -/
def beforeCharging (env : PricingEnv) (orig : Bool) : Pricing Unit := do
  setupTrunk env
  classification env orig

theorem tariffication_eq (env : PricingEnv) :
    tariffication env = getCall >>= fun call => beforeCharging env call.orig >>= fun _ =>
      charging env call.orig >>= fun _ => setVatFlag env := by
  simp only [tariffication, beforeCharging, bind_assoc]

/-- **How pricing starts.**  It stops without trunk, server or settings, and else
goes on with a classified leg. -/
theorem beforeCharging_cases (env : PricingEnv) (s : PricingState) :
    (legObjects env s.callInfo.call.orig = none ∧ ∃ message s',
      exec (beforeCharging env s.callInfo.call.orig) s = (.error (.calcException message), s') ∧
        s'.bill = s.bill) ∨
    ∃ trunk server settings s',
      legObjects env s.callInfo.call.orig = some (trunk, server, settings) ∧
      Classified env s trunk server s' ∧
      exec (beforeCharging env s.callInfo.call.orig) s = (.ok (), s') := by
  cases hobjects : legObjects env s.callInfo.call.orig with
  | none =>
      left
      obtain ⟨message, hstop⟩ := exec_setupTrunk_none hobjects
      have hexec : exec (setupTrunk env) s =
          (.error (.calcException message), (exec (setupTrunk env) s).2) := Prod.ext hstop rfl
      exact ⟨rfl, message, _, exec_bind_error hexec, keeps_bill_setupTrunk env s⟩
  | some objects =>
      right
      obtain ⟨trunk, server, settings⟩ := objects
      obtain ⟨s', hclass, hkept, hon⟩ := @exec_classification env trunk settings
        (s.withTrunk trunk server settings) rfl rfl
      have hbill := congrArg PricingState.bill hkept
      simp only [PricingState.bill_unclassified, PricingState.bill_withTrunk] at hbill
      refine ⟨trunk, server, settings, s', rfl, ?_, ?_⟩
      · exact {
          bill := hbill
          numbers := hon.numbers
          onTrunk := hon.trunk
          onServer := congrArg (fun p => p.callInfo.server) hkept
          serviceNumber := congrArg (fun p => p.callInfo.serviceNumber) hkept
          serviceTrunk := congrArg (fun p => p.callInfo.serviceTrunk) hkept
          destinations := hon.destinations }
      · unfold beforeCharging
        rw [exec_bind_ok (exec_setupTrunk_some hobjects)]
        exact hclass

/-- The same for the whole of `tariffication`. -/
theorem tariffication_cases (env : PricingEnv) (s : PricingState) :
    (legObjects env s.callInfo.call.orig = none ∧ ∃ message s',
      exec (tariffication env) s = (.error (.calcException message), s') ∧ s'.bill = s.bill) ∨
    ∃ trunk server settings s',
      legObjects env s.callInfo.call.orig = some (trunk, server, settings) ∧
      Classified env s trunk server s' ∧
      exec (tariffication env) s =
        exec (charging env s.callInfo.call.orig >>= fun _ => setVatFlag env) s' := by
  rw [tariffication_eq, exec_bind_ok (exec_getCall s)]
  rcases beforeCharging_cases env s with
    ⟨hnone, message, s', hstop, hkept⟩ | ⟨trunk, server, settings, s', hsome, hclass, hexec⟩
  · exact Or.inl ⟨hnone, message, s', exec_bind_error hstop, hkept⟩
  · exact Or.inr ⟨trunk, server, settings, s', hsome, hclass, exec_bind_ok hexec⟩

end Trunk

/-! ## By number -/

section Number

/-- The number a leg by number belongs to.  A line without a number of its own is
recognised by the calling number of the CDR. -/
def ownNumber (env : PricingEnv) (trunk : Trunk) (orig : Bool) (numbers : Int × Int) : Int :=
  if orig then
    if atoll env.cdr.redirectNumber = 0 then lineNumber env.cdr.srcNumber
    else (legNumbers env trunk true numbers).1
  else numbers.2

/-- A foreign trunk may only be used by the numbers of its own account. -/
def mayUseTrunk (env : PricingEnv) (trunk : Trunk) (serviceNumber : ServiceNumber) : Bool :=
  trunk.ourTrunk || (env.repository.getServiceTrunk trunk.id).any fun serviceTrunk =>
    serviceNumber.clientAccountId == serviceTrunk.clientAccountId

/-- The number service a leg by number is charged to, and its account. -/
def numberAccount (env : PricingEnv) (trunk : Trunk) (number : Int) :
    Option (ServiceNumber × Client) := do
  let serviceNumber ← env.repository.getServiceNumber number
  if mayUseTrunk env trunk serviceNumber then
    let account ← env.repository.data.client serviceNumber.clientAccountId
    return (serviceNumber, account)
  else
    none

/-- What follows in `calcByNumber` when the account is known. -/
def chargeByNumber (env : PricingEnv) (fTarifficationSkip : Bool) : Pricing Unit := do
  let callInfo ← getCallInfo
  if callInfo.call.orig then
    let server ← deref callInfo.server
    if isServiceCall env server then
      modifyCall fun call => { call with isServiceNumber := true }
    else
      onlyIf (!fTarifficationSkip) (calcOrigByNumber env)
  else
    calcTermByNumber env

/-- What `calcByNumber` does before: the number service and the account are set up. -/
def beforeChargeByNumber (env : PricingEnv) : Pricing Unit := do
  let call ← getCall
  onlyIf (call.orig && atoll env.cdr.redirectNumber == 0) do
    processLineWithoutNumber env.cdr.srcNumber
  setupServiceNumber env
  setupServiceTrunkForNumber env
  setupAccount env

theorem calcByNumber_eq (env : PricingEnv) (fTarifficationSkip : Bool) :
    calcByNumber env fTarifficationSkip =
      beforeChargeByNumber env >>= fun _ => chargeByNumber env fTarifficationSkip := by
  simp only [calcByNumber, beforeChargeByNumber, chargeByNumber, bind_assoc]

/-- A leg by number whose account has been found. -/
structure OfNumber (env : PricingEnv) (s₀ : PricingState) (trunk : Trunk) (server : Server)
    (serviceNumber : ServiceNumber) (account : Client) (s : PricingState) : Prop where
  bill : s.bill = s₀.bill
  onServer : s.callInfo.server = some server
  ofService : s.callInfo.serviceNumber = some serviceNumber
  ofAccount : s.callInfo.account = some account
  numberServiceId : s.callInfo.call.numberServiceId = serviceNumber.id
  accountId : s.callInfo.call.accountId = account.id
  accountVersion : s.callInfo.call.accountVersion = account.accountVersion
  month : s.callInfo.dt.month = getTmonth s₀.callInfo.call.connectTime account.timezoneOffset
  dstNumber : s.callInfo.call.dstNumber = (legNumbers env trunk s₀.callInfo.call.orig s₀.numbers).2
  destinations : ∀ num,
    destinationsOf env s.numberRanges num = destinationsOf env s₀.numberRanges num

variable {s₀ s : PricingState} {trunk : Trunk} {server : Server}

theorem Classified.orig (h : Classified env s₀ trunk server s) :
    s.callInfo.call.orig = s₀.callInfo.call.orig :=
  congrArg (fun p => p.callInfo.call.orig) h.bill

theorem Classified.connectTime (h : Classified env s₀ trunk server s) :
    s.callInfo.call.connectTime = s₀.callInfo.call.connectTime :=
  congrArg (fun p => p.callInfo.call.connectTime) h.bill

theorem Classified.srcNumber (h : Classified env s₀ trunk server s) :
    s.callInfo.call.srcNumber = (legNumbers env trunk s₀.callInfo.call.orig s₀.numbers).1 :=
  congrArg Prod.fst h.numbers

theorem Classified.dstNumber (h : Classified env s₀ trunk server s) :
    s.callInfo.call.dstNumber = (legNumbers env trunk s₀.callInfo.call.orig s₀.numbers).2 :=
  congrArg Prod.snd h.numbers

/-- The state in which the number service is looked up. -/
theorem exec_lineWithoutNumber (h : Classified env s₀ trunk server s) :
    ∃ s', exec (onlyIf (s.callInfo.call.orig && atoll env.cdr.redirectNumber == 0)
        (processLineWithoutNumber env.cdr.srcNumber)) s = (.ok (), s') ∧
      s'.bill = s₀.bill ∧ s'.callInfo.trunk = some trunk ∧ s'.callInfo.server = some server ∧
      getNumber s'.callInfo.call = ownNumber env trunk s₀.callInfo.call.orig s₀.numbers ∧
      s'.callInfo.call.dstNumber = (legNumbers env trunk s₀.callInfo.call.orig s₀.numbers).2 ∧
      s'.numberRanges = s.numberRanges := by
  have hsrc := h.srcNumber
  have hdst := h.dstNumber
  rw [h.orig]
  cases horig : s₀.callInfo.call.orig with
  | false =>
      rw [horig] at hdst
      refine ⟨s, rfl, h.bill, h.onTrunk, h.onServer, ?_, hdst, rfl⟩
      rw [getNumber, h.orig, horig]
      exact hdst
  | true =>
      rw [horig] at hsrc hdst
      by_cases hline : atoll env.cdr.redirectNumber = 0
      · refine ⟨s.withNumbers (lineNumber env.cdr.srcNumber, s.callInfo.call.dstNumber), ?_,
          h.bill, h.onTrunk, h.onServer, ?_, hdst, rfl⟩
        · rw [hline]
          rfl
        · rw [ownNumber, if_pos hline]
          show (if s.callInfo.call.orig = true then _ else _) = _
          rw [h.orig, horig]
          rfl
      · refine ⟨s, ?_, h.bill, h.onTrunk, h.onServer, ?_, hdst, rfl⟩
        · rw [Bool.true_and, beq_eq_false_iff_ne.mpr hline]
          rfl
        · rw [getNumber, h.orig, horig, ownNumber, if_neg hline]
          exact hsrc

theorem exec_setupServiceNumber_some {serviceNumber : ServiceNumber}
    (h : env.repository.getServiceNumber (getNumber s.callInfo.call) = some serviceNumber) :
    exec (setupServiceNumber env) s = (.ok (), s.withServiceNumber serviceNumber) := by
  simp only [setupServiceNumber, exec_bind, exec_getCall, exec_modifyCallInfo, exec_modifyCall, h,
    exec_orThrow_some, PricingState.withServiceNumber]

/-- The check of a foreign trunk is the one of `mayUseTrunk`. -/
theorem exec_checkForeignTrunk {serviceNumber : ServiceNumber}
    (h : s.callInfo.serviceNumber = some serviceNumber) :
    (mayUseTrunk env trunk serviceNumber = true ∧
      exec (checkForeignTrunk trunk (env.repository.getServiceTrunk trunk.id)) s = (.ok (), s)) ∨
    (mayUseTrunk env trunk serviceNumber = false ∧ ∃ message,
      exec (checkForeignTrunk trunk (env.repository.getServiceTrunk trunk.id)) s =
        (.error (.calcException message), s)) := by
  unfold checkForeignTrunk mayUseTrunk
  cases hour : trunk.ourTrunk with
  | true => exact Or.inl ⟨rfl, rfl⟩
  | false =>
      cases hfound : env.repository.getServiceTrunk trunk.id with
      | none => exact Or.inr ⟨rfl, _, rfl⟩
      | some serviceTrunk =>
          simp only [onlyIf, Bool.not_false, if_true, exec_bind, exec_orThrow_some,
            exec_getCallInfo, h, exec_deref_some]
          by_cases hsame : serviceNumber.clientAccountId = serviceTrunk.clientAccountId
          · simp [hsame]
          · simp [hsame]

theorem exec_setupServiceTrunkForNumber {serviceNumber : ServiceNumber}
    (htrunk : s.callInfo.trunk = some trunk)
    (hservice : s.callInfo.serviceNumber = some serviceNumber) :
    (mayUseTrunk env trunk serviceNumber = true ∧ exec (setupServiceTrunkForNumber env) s =
      (.ok (), s.withServiceTrunk (env.repository.getServiceTrunk trunk.id))) ∨
    (mayUseTrunk env trunk serviceNumber = false ∧ ∃ message s',
      exec (setupServiceTrunkForNumber env) s = (.error (.calcException message), s') ∧
        s'.bill = s.bill) := by
  have hunfold : exec (setupServiceTrunkForNumber env) s =
      exec (checkForeignTrunk trunk (env.repository.getServiceTrunk trunk.id) >>= fun _ =>
        whenSome (env.repository.getServiceTrunk trunk.id) fun serviceTrunk =>
          modifyCall fun call => { call with trunkServiceId := serviceTrunk.id })
        { s with callInfo := { s.callInfo with
          serviceTrunk := env.repository.getServiceTrunk trunk.id } } := by
    unfold setupServiceTrunkForNumber
    rw [exec_bind_ok (exec_getCallInfo s), htrunk]
    rfl
  rw [hunfold]
  rcases @exec_checkForeignTrunk env { s with callInfo := { s.callInfo with
    serviceTrunk := env.repository.getServiceTrunk trunk.id } } trunk serviceNumber hservice with
    ⟨hmay, hcheck⟩ | ⟨hmay, message, hcheck⟩
  · refine Or.inl ⟨hmay, ?_⟩
    rw [exec_bind_ok hcheck]
    unfold PricingState.withServiceTrunk
    cases env.repository.getServiceTrunk trunk.id with
    | none => rfl
    | some serviceTrunk => rfl
  · exact Or.inr ⟨hmay, message, _, exec_bind_error hcheck, rfl⟩

theorem exec_setupAccount_some {account : Client} (h : findAccount env s.callInfo = some account) :
    exec (setupAccount env) s = (.ok (), s.withAccount account) := by
  simp only [setupAccount, exec_bind, exec_getCallInfo, exec_modifyCallInfo, h, exec_orThrow_some,
    exec_modifyCall]
  rfl

theorem exec_setupAccount_none (h : findAccount env s.callInfo = none) :
    ∃ message s', exec (setupAccount env) s = (.error (.calcException message), s') ∧
      s'.bill = s.bill := by
  refine ⟨"ACCOUNT WAS NOT FOUND", { s with callInfo := { s.callInfo with account := none } },
    ?_, rfl⟩
  simp only [setupAccount, exec_bind, exec_getCallInfo, exec_modifyCallInfo, h, exec_orThrow_none]

/-- **How a leg by number starts.**  It stops without a number service that may
use the trunk, or without the account, and else goes on with them. -/
theorem beforeChargeByNumber_cases (h : Classified env s₀ trunk server s) :
    (numberAccount env trunk (ownNumber env trunk s₀.callInfo.call.orig s₀.numbers) = none ∧
      ∃ message s', exec (beforeChargeByNumber env) s =
        (.error (.calcException message), s') ∧ s'.bill = s₀.bill) ∨
    ∃ serviceNumber account s',
      numberAccount env trunk (ownNumber env trunk s₀.callInfo.call.orig s₀.numbers) =
        some (serviceNumber, account) ∧
      OfNumber env s₀ trunk server serviceNumber account s' ∧
      exec (beforeChargeByNumber env) s = (.ok (), s') := by
  obtain ⟨s₁, hline, hbill, htrunk, hserver, hnumber, hdst, hranges⟩ := exec_lineWithoutNumber h
  have htime : s₁.callInfo.call.connectTime = s₀.callInfo.call.connectTime :=
    congrArg (fun p => p.callInfo.call.connectTime) hbill
  have hdestinations := h.destinations
  rw [← hranges] at hdestinations
  have hunfold : exec (beforeChargeByNumber env) s =
      exec (setupServiceNumber env >>= fun _ => setupServiceTrunkForNumber env >>= fun _ =>
        setupAccount env) s₁ := by
    unfold beforeChargeByNumber
    rw [exec_bind_ok (exec_getCall s), exec_bind_ok hline]
  rw [hunfold]
  unfold numberAccount
  cases hservice : env.repository.getServiceNumber
      (ownNumber env trunk s₀.callInfo.call.orig s₀.numbers) with
  | none =>
      left
      refine ⟨rfl, "SERVICE NUMBER WAS NOT FOUND", { s₁ with callInfo := { s₁.callInfo with
        serviceNumber := none } }, ?_, hbill⟩
      simp only [setupServiceNumber, exec_bind, exec_getCall, exec_modifyCallInfo, hnumber,
        hservice, exec_orThrow_none]
  | some serviceNumber =>
      have hs₂ := exec_setupServiceNumber_some (hnumber ▸ hservice)
      rw [exec_bind_ok hs₂]
      rcases @exec_setupServiceTrunkForNumber env (s₁.withServiceNumber serviceNumber) trunk
        serviceNumber htrunk rfl with ⟨hmay, hexec⟩ | ⟨hmay, message, s', hexec, hkept⟩
      · rw [exec_bind_ok hexec]
        -- the account is that of the number service
        cases haccount : env.repository.data.client serviceNumber.clientAccountId with
        | none =>
            obtain ⟨message, s', hstop, hkept⟩ := @exec_setupAccount_none env
              ((s₁.withServiceNumber serviceNumber).withServiceTrunk
                (env.repository.getServiceTrunk trunk.id)) haccount
            rw [PricingState.bill_withServiceTrunk, PricingState.bill_withServiceNumber] at hkept
            refine Or.inl ⟨?_, message, s', hstop, hkept.trans hbill⟩
            simp [hmay, haccount]
        | some account =>
            have hs₄ := @exec_setupAccount_some env
              ((s₁.withServiceNumber serviceNumber).withServiceTrunk
                (env.repository.getServiceTrunk trunk.id)) account haccount
            refine Or.inr ⟨serviceNumber, account, _, ?_, ?_, hs₄⟩
            · simp [hmay, haccount]
            · exact {
                bill := by simp only [PricingState.bill_withAccount,
                  PricingState.bill_withServiceTrunk, PricingState.bill_withServiceNumber, hbill]
                onServer := hserver
                ofService := rfl
                ofAccount := rfl
                numberServiceId := rfl
                accountId := rfl
                accountVersion := rfl
                month := by rw [← htime]; rfl
                dstNumber := hdst
                destinations := hdestinations }
      · rw [PricingState.bill_withServiceNumber] at hkept
        refine Or.inl ⟨?_, message, s', exec_bind_error hexec, hkept.trans hbill⟩
        simp [hmay]

/-- The same for the whole of `calcByNumber`. -/
theorem calcByNumber_cases (h : Classified env s₀ trunk server s) (fTarifficationSkip : Bool) :
    (numberAccount env trunk (ownNumber env trunk s₀.callInfo.call.orig s₀.numbers) = none ∧
      ∃ message s', exec (calcByNumber env fTarifficationSkip) s =
        (.error (.calcException message), s') ∧ s'.bill = s₀.bill) ∨
    ∃ serviceNumber account s',
      numberAccount env trunk (ownNumber env trunk s₀.callInfo.call.orig s₀.numbers) =
        some (serviceNumber, account) ∧
      OfNumber env s₀ trunk server serviceNumber account s' ∧
      exec (calcByNumber env fTarifficationSkip) s =
        exec (chargeByNumber env fTarifficationSkip) s' := by
  rw [calcByNumber_eq]
  rcases beforeChargeByNumber_cases h with
    ⟨hnone, message, s', hstop, hkept⟩ | ⟨serviceNumber, account, s', hsome, hof, hexec⟩
  · exact Or.inl ⟨hnone, message, s', exec_bind_error hstop, hkept⟩
  · exact Or.inr ⟨serviceNumber, account, s', hsome, hof, exec_bind_ok hexec⟩

end Number

end BillingCall
end VoipBill
