import VoipBill.Auth.AutoRouting
import VoipBill.Auth.RadiusRequest

/-!
# What a request is answered

* `process_wellFormed`: `accept` is always set, a rejection says nothing else, and an acceptance
  names at most one of a route, a release reason and an airp;
* `rejected_iff`: only the answer of the limits rejects a request, and only in a region without
  an outcome for it; every exception ends in an acceptance.

Admission does not touch what the answer sets, so that an exception finds the response without
an answer.
-/

namespace VoipBill
namespace AuthEnv

open Lib Lib.Hoare

variable {env : AuthEnv} {request : RadiusAuthRequest}

/-! ## The shape of a response -/

/-- Only the calling number may have been set. -/
structure Pending (response : RadiusAuthResponse) : Prop where
  accept : response.accept = none
  dstNumber : response.dstNumber = []
  routeCase : response.routeCase = []
  releaseReason : response.releaseReason = []
  airp : response.airp = []

/-- An answer is given, and it is one answer. -/
structure WellFormed (response : RadiusAuthResponse) : Prop where
  accept : response.accept.isSome = true
  reject : response.accept = some false →
    response = { accept := some false }
  routeCase : response.routeCase ≠ [] → response.releaseReason = [] ∧ response.airp = []
  releaseReason : response.releaseReason ≠ [] → response.airp = []

namespace Pending

variable {response : RadiusAuthResponse} (h : Pending response)
include h

theorem setReject : WellFormed response.setReject where
  accept := rfl
  reject _ := by
    obtain ⟨_, _, hroute, hrelease, hairp⟩ := h
    unfold RadiusAuthResponse.setReject
    rw [hroute, hrelease, hairp]
  routeCase hroute := absurd h.routeCase hroute
  releaseReason hrelease := absurd h.releaseReason hrelease

theorem setAccept : WellFormed response.setAccept where
  accept := rfl
  reject hreject := by cases hreject
  routeCase hroute := absurd h.routeCase hroute
  releaseReason hrelease := absurd h.releaseReason hrelease

theorem setReleaseReason (releaseReason : List Char) :
    WellFormed (response.setReleaseReason releaseReason) where
  accept := rfl
  reject hreject := by cases hreject
  routeCase hroute := absurd h.routeCase hroute
  releaseReason _ := h.airp

theorem setRouteCase (routeCase : List Char) : WellFormed (response.setRouteCase routeCase) where
  accept := rfl
  reject hreject := by cases hreject
  routeCase _ := ⟨h.releaseReason, h.airp⟩
  releaseReason hrelease := absurd h.releaseReason hrelease

theorem setAirp (airp : List Char) : WellFormed (response.setAirp airp) where
  accept := rfl
  reject hreject := by cases hreject
  routeCase hroute := absurd h.routeCase hroute
  releaseReason hrelease := absurd h.releaseReason hrelease

end Pending

/-- The numbers of an outcome change nothing else of an acceptance. -/
theorem WellFormed.setStations {response : RadiusAuthResponse} (h : WellFormed response)
    (haccept : response.accept = some true) (outcome : AuthOutcome) :
    WellFormed (setStations outcome response) where
  accept := h.accept
  reject hreject := by
    have hfalse : response.accept = some false := hreject
    rw [haccept] at hfalse
    cases hfalse
  routeCase := h.routeCase
  releaseReason := h.releaseReason

/-! ## Admission leaves the response open -/

/-- The response is still open. -/
def Open (s : AuthState) : Prop := Pending s.response

theorem triple_fail {α : Type} {P E : AuthState → Prop} {Q : α → AuthState → Prop}
    (message : String) (h : ∀ s, P s → E s) : Triple P (fail message : Auth α) Q E :=
  triple_throw h

theorem triple_found {α : Type} {P E : AuthState → Prop} (message : String) (o : Option α)
    (h : ∀ s, P s → E s) : Triple P (found message o) (fun a s => P s ∧ o = some a) E := by
  cases o with
  | none => exact triple_throw h
  | some a => exact triple_pure fun _ hs => ⟨hs, rfl⟩

/-- A part of pricing works on its own part of the state. -/
theorem exec_runPricing {α : Type} (x : Pricing α) (s : AuthState) :
    exec (runPricing x) s =
      ((exec x s.pricing).1, { s with pricing := (exec x s.pricing).2 }) := by
  unfold runPricing
  rw [exec_bind, exec_get]
  rcases hrun : exec x s.pricing with ⟨result, pricing⟩
  dsimp only
  rw [hrun]
  cases result with
  | ok a => rfl
  | error stop => rfl

theorem keeps_runPricing {α : Type} (x : Pricing α) :
    Keeps (fun s : AuthState => (s.response, s.blocked, s.origTrunk)) (runPricing x) := by
  intro s
  rw [exec_runPricing]

theorem open_of_parts {s s' : AuthState}
    (h : (s'.response, s'.blocked, s'.origTrunk) = (s.response, s.blocked, s.origTrunk))
    (hs : Open s) : Open s' := by
  have hresponse : s'.response = s.response := congrArg Prod.fst h
  unfold Open
  rw [hresponse]
  exact hs

theorem triple_init : Triple Open (env.init request) (fun _ => Open) Open := by
  unfold init
  refine triple_bind (R := fun _ => Open) ?_ fun _ => ?_
  · unfold requireReady
    split
    · exact triple_pure fun _ hs => hs
    · exact triple_fail _ fun _ hs => hs
  refine triple_bind (triple_found _ _ fun _ hs => hs) fun origTrunk => ?_
  refine triple_bind (triple_modify (Q := fun _ => Open) fun _ hs => hs.1) fun _ => ?_
  refine triple_bind (triple_found _ _ fun _ hs => hs) fun server => ?_
  exact triple_pure fun _ hs => hs.1

theorem triple_processLineWithoutNumber (origTrunk : Trunk) (server : AuthServer) :
    Triple Open (processLineWithoutNumber request origTrunk server) (fun _ => Open) Open := by
  unfold processLineWithoutNumber
  dsimp only
  split
  · split
    · exact triple_modify fun _ hs => ⟨hs.accept, hs.dstNumber, hs.routeCase, hs.releaseReason,
        hs.airp⟩
    · exact triple_pure fun _ hs => hs
  · exact triple_pure fun _ hs => hs

theorem triple_calcOrig (origTrunk : Trunk) :
    Triple Open (env.calcOrig request origTrunk) (fun _ => Open) Open := by
  unfold calcOrig
  refine triple_get_bind fun s => ?_
  split
  · exact triple_throw fun _ hs => hs.1
  · exact triple_bind (triple_modify (Q := fun _ => Open) fun _ hs => hs.1) fun _ =>
      triple_pure fun _ hs => hs

theorem exec_analyze (authRequest : AuthRequest) (s : AuthState) :
    exec (analyze authRequest) s = (.ok (RadiusAuth.analyzeCall authRequest s.blocked).1,
      { s with blocked := (RadiusAuth.analyzeCall authRequest s.blocked).2 }) := rfl

variable (env request) in
theorem triple_admission : Triple Open (env.admission request) (fun _ => Open) Open := by
  unfold admission
  refine triple_bind triple_init fun admitted => ?_
  obtain ⟨origTrunk, server⟩ := admitted
  dsimp only
  by_cases hintercepted : env.isIntercepted request = true
  · rw [if_pos hintercepted]
    exact triple_pure fun _ hs => hs
  rw [if_neg hintercepted]
  refine triple_bind (triple_processLineWithoutNumber origTrunk server) fun _ => ?_
  refine triple_bind (triple_calcOrig origTrunk) fun callInfo => ?_
  refine triple_bind (R := fun _ => Open) (fun s hs => ?_) fun billResponse => ?_
  · rw [exec_analyze]
    exact hs
  · exact triple_pure fun _ hs => hs

/-! ## Every answer is set once -/

/-- The response accepts the request. -/
structure Accepted (s : AuthState) : Prop where
  wellFormed : WellFormed s.response
  accept : s.response.accept = some true

theorem triple_modifyResponse {f : RadiusAuthResponse → RadiusAuthResponse}
    (h : ∀ response, Pending response →
      WellFormed (f response) ∧ (f response).accept = some true) :
    Triple Open (modifyResponse f) (fun _ => Accepted) Open :=
  triple_modify fun s hs => ⟨(h s.response hs).1, (h s.response hs).2⟩

theorem triple_processAutoRouteResponse (termOrders : List ServiceTrunkOrder) :
    Triple Open (processAutoRouteResponse termOrders) (fun _ => Accepted) Open := by
  unfold processAutoRouteResponse
  split
  · exact triple_modifyResponse fun _ hs => ⟨hs.setReleaseReason _, rfl⟩
  split
  · exact triple_throw fun _ hs => hs
  · exact triple_modifyResponse fun _ hs => ⟨hs.setRouteCase _, rfl⟩

variable {p : RadiusAuthProcessor} {server : Server} {skipLoopProtection : Bool}

theorem triple_processAutoOutcome :
    Triple Open (env.processAutoOutcome p server skipLoopProtection) (fun _ => Accepted) Open := by
  unfold processAutoOutcome
  refine (keeps_runPricing _).andThen (P := Open) (fun heq hs => open_of_parts heq hs)
    (fun _ hs => hs) fun found => ?_
  exact triple_processAutoRouteResponse found.2

theorem triple_processMegaTrunkPhase1 :
    Triple Open (env.processMegaTrunkPhase1 p server) (fun _ => Accepted) Open := by
  unfold processMegaTrunkPhase1
  dsimp only
  split
  · exact triple_fail _ fun _ hs => hs
  · exact triple_modifyResponse fun _ hs => ⟨hs.setRouteCase _, rfl⟩

theorem triple_processMegaTrunkPhase2 :
    Triple Open (processMegaTrunkPhase2 p) (fun _ => Accepted) Open := by
  unfold processMegaTrunkPhase2
  refine triple_bind (triple_found _ _ fun _ hs => hs) fun trunk => ?_
  exact (triple_modifyResponse fun _ hs => ⟨hs.setRouteCase _, rfl⟩).pre fun _ hs => hs.1

theorem triple_processRouteCaseOutcome (outcome : AuthOutcome) :
    Triple Open (env.processRouteCaseOutcome outcome) (fun _ => Accepted) Open := by
  unfold processRouteCaseOutcome
  refine triple_bind (triple_found _ _ fun _ hs => hs) fun routeCase => ?_
  exact (triple_modifyResponse fun _ hs =>
    ⟨(hs.setRouteCase _).setStations rfl outcome, rfl⟩).pre fun _ hs => hs.1

theorem triple_processReleaseReasonOutcome (outcome : AuthOutcome) :
    Triple Open (env.processReleaseReasonOutcome outcome) (fun _ => Accepted) Open := by
  unfold processReleaseReasonOutcome
  refine triple_bind (triple_found _ _ fun _ hs => hs) fun releaseReason => ?_
  exact (triple_modifyResponse fun _ hs => ⟨hs.setReleaseReason _, rfl⟩).pre fun _ hs => hs.1

theorem triple_processAirpOutcome (outcome : AuthOutcome) :
    Triple Open (env.processAirpOutcome outcome) (fun _ => Accepted) Open := by
  unfold processAirpOutcome
  refine triple_bind (triple_found _ _ fun _ hs => hs) fun airp => ?_
  exact (triple_modifyResponse fun _ hs =>
    ⟨(hs.setAirp _).setStations rfl outcome, rfl⟩).pre fun _ hs => hs.1

theorem triple_processOutcome (outcomeId : Int) :
    Triple Open (env.processOutcome p server skipLoopProtection outcomeId) (fun _ => Accepted)
      Open := by
  unfold processOutcome
  refine triple_bind (triple_found _ _ fun _ hs => hs) fun outcome => ?_
  refine Triple.pre (P := Open) ?_ fun _ hs => hs.1
  split
  · exact triple_processAutoOutcome
  split
  · exact triple_processMegaTrunkPhase1
  split
  · exact triple_processMegaTrunkPhase2
  split
  · exact triple_processRouteCaseOutcome outcome
  split
  · exact triple_processReleaseReasonOutcome outcome
  split
  · exact triple_processAirpOutcome outcome
  split
  · exact triple_modifyResponse fun _ hs => ⟨hs.setAccept, rfl⟩
  · exact triple_fail _ fun _ hs => hs

theorem triple_routeOutcome : Triple Open (env.routeOutcome p server) (fun _ => Open) Open := by
  unfold routeOutcome
  split
  · exact triple_throw fun _ hs => hs
  · exact triple_fail _ fun _ hs => hs
  · exact triple_pure fun _ hs => hs

/-! ## Rejections -/

/-- The answer of the limits rejects a call in a region. -/
def Refuses (server : AuthServer) : BillResponse → Prop
  | .accept => False
  | .reject => True
  | .lowBalance => server.lowBalanceOutcomeId = 0
  | .voipDisabled => server.blockedOutcomeId = 0

/-- The response answers the request, and rejects it exactly if it is refused. -/
structure Settled (refused : Prop) (s : AuthState) : Prop where
  wellFormed : WellFormed s.response
  reject_iff : s.response.accept = some false ↔ refused

theorem Accepted.settled {refused : Prop} {s : AuthState} (hs : Accepted s) (h : ¬ refused) :
    Settled refused s where
  wellFormed := hs.wellFormed
  reject_iff := by
    rw [hs.accept]
    exact iff_of_false (by decide) h

/-- Nothing is settled, and the request is not refused. -/
def OpenUnrefused (refused : Prop) (s : AuthState) : Prop := Open s ∧ ¬ refused

theorem settled_of_accepted {refused : Prop} {x : Auth Unit} (hx : Triple Open x (fun _ => Accepted) Open)
    (h : ¬ refused) : Triple Open x (fun _ => Settled refused) (OpenUnrefused refused) := by
  intro s hs
  have hends := hx s hs
  generalize exec x s = result at hends
  match result with
  | (.ok (), s') => exact Accepted.settled hends h
  | (.error _, s') => exact ⟨hends, h⟩

theorem triple_setReject {refused : Prop} (h : refused) :
    Triple Open (modifyResponse fun response => response.setReject) (fun _ => Settled refused)
      (OpenUnrefused refused) :=
  triple_modify fun _ hs => ⟨hs.setReject, iff_of_true rfl h⟩

theorem triple_specialOutcome (analysed : Analysed) (outcomeId : Int) :
    Triple Open (env.specialOutcome analysed outcomeId) (fun _ => Settled (outcomeId = 0))
      (OpenUnrefused (outcomeId = 0)) := by
  unfold specialOutcome
  split
  case isTrue hzero => exact triple_setReject hzero
  case isFalse houtcome => exact settled_of_accepted (triple_processOutcome outcomeId) houtcome

variable (env) in
theorem triple_answerTo (analysed : Analysed) (billResponse : BillResponse) :
    Triple Open (env.answerTo analysed billResponse)
      (fun _ => Settled (Refuses analysed.server billResponse))
      (OpenUnrefused (Refuses analysed.server billResponse)) := by
  cases billResponse with
  | reject => exact triple_setReject trivial
  | lowBalance => exact triple_specialOutcome analysed _
  | voipDisabled => exact triple_specialOutcome analysed _
  | accept =>
      refine settled_of_accepted (triple_bind triple_routeOutcome fun routed => ?_) id
      obtain ⟨outcomeId, server⟩ := routed
      dsimp only
      split
      · exact triple_modifyResponse fun _ hs => ⟨hs.setReleaseReason _, rfl⟩
      · exact triple_processOutcome outcomeId

theorem triple_intercepted :
    Triple Open (env.answer .intercepted) (fun _ => Accepted) Open :=
  triple_modifyResponse fun _ hs => ⟨hs.setAccept, rfl⟩

variable (env request) in
theorem triple_processBody :
    Triple Open (env.processBody request) (fun _ s => WellFormed s.response) Open := by
  unfold processBody
  refine triple_bind (triple_admission env request) fun admitted => ?_
  cases admitted with
  | intercepted => exact triple_intercepted.post fun _ _ hs => hs.wellFormed
  | analysed analysed =>
      intro s hs
      have hends := triple_answerTo env analysed analysed.billResponse s hs
      show Ends _ _ (exec (env.answerTo analysed analysed.billResponse) s)
      generalize exec (env.answerTo analysed analysed.billResponse) s = result at hends
      match result with
      | (.ok (), s') => exact Settled.wellFormed hends
      | (.error _, s') => exact And.left hends

variable (env) in
theorem open_start (blocked : AccountIdsBlocked) (pricing : PricingState) :
    Open (env.start blocked pricing) :=
  ⟨rfl, rfl, rfl, rfl, rfl⟩

theorem wellFormed_fallback {s : AuthState} (hs : Open s) : WellFormed (env.fallback s) := by
  unfold fallback
  split
  · exact hs.setReleaseReason _
  · exact hs.setAccept

theorem settle_cases {result : Except CalcStop Unit × AuthState} {response : RadiusAuthResponse}
    {blocked' : AccountIdsBlocked} (h : env.settle result = some (response, blocked')) :
    (∃ s, result = (.ok (), s) ∧ response = s.response) ∨
      ∃ message s, result = (.error (.calcException message), s) ∧
        response = env.fallback s := by
  match result with
  | (.ok (), s) =>
      cases h
      exact Or.inl ⟨s, rfl, rfl⟩
  | (.error (.calcException message), s) =>
      cases h
      exact Or.inr ⟨message, s, rfl, rfl⟩
  | (.error .nullPointer, s) => cases h

/-- Whatever happens to a request, a response that is sent has its `accept` set; a rejection
carries no number and no route; an acceptance carries a route, a release reason, an airp, or
none of them. -/
theorem process_wellFormed (env : AuthEnv) (request : RadiusAuthRequest)
    (blocked : AccountIdsBlocked) (pricing : PricingState) (response : RadiusAuthResponse)
    (blocked' : AccountIdsBlocked)
    (h : env.process request blocked pricing = some (response, blocked')) :
    WellFormed response := by
  have hends := triple_processBody env request _
    (open_start env blocked pricing)
  rcases settle_cases h with ⟨s, hexec, rfl⟩ | ⟨message, s, hexec, rfl⟩
  · rw [hexec] at hends
    exact hends
  · rw [hexec] at hends
    exact wellFormed_fallback hends

/-- A trunk of a known region whose calls belong to no account. -/
def unknownAccount : AuthEnv where
  data := { trunkByName := fun _ _ => some { id := 5, serverId := 83 } }
  server := fun _ => some { id := 83 }

theorem process_unknownAccount :
    ∃ blocked', unknownAccount.process { trunkName := ['a'] } ∅ BillingCall.noCounters =
      some ({ accept := some false }, blocked') := by
  have hresponse : (unknownAccount.process { trunkName := ['a'] } ∅ BillingCall.noCounters).map
      (fun answer => answer.1) = some { accept := some false } := by rfl
  obtain ⟨⟨response, blocked'⟩, hprocess, heq⟩ := Option.map_eq_some_iff.mp hresponse
  exact ⟨blocked', by rw [hprocess, ← heq]⟩

theorem process_wellFormed_unknownAccount :
    ∃ response blocked',
      unknownAccount.process { trunkName := ['a'] } ∅ BillingCall.noCounters =
        some (response, blocked') ∧ WellFormed response := by
  obtain ⟨blocked', hprocess⟩ := process_unknownAccount
  exact ⟨_, blocked', hprocess, process_wellFormed _ _ _ _ _ _ hprocess⟩

/-! ## How far a request gets -/

/-- The request gets as far as pricing: the lists are loaded, its trunk and its region are
known, and it is no interception. -/
structure Reaches (env : AuthEnv) (request : RadiusAuthRequest) (origTrunk : Trunk)
    (server : AuthServer) : Prop where
  ready : env.ready = true
  trunk : env.trunkOf request = some origTrunk
  server : env.serverOf request origTrunk = some server
  not_intercepted : env.isIntercepted request = false

/-- The answer of the limits to a priced call. -/
def limitsOf (env : AuthEnv) (request : RadiusAuthRequest) (origTrunk : Trunk)
    (callInfo : CallInfo) (blocked : AccountIdsBlocked) : BillResponse × AccountIdsBlocked :=
  RadiusAuth.analyzeCall (env.authRequestOf request origTrunk callInfo.call) blocked

variable (env request) in
theorem exec_init (s : AuthState) :
    ((∀ origTrunk server, ¬ Reaches env request origTrunk server) ∧
      ∃ message s', exec (env.init request) s = (.error (.calcException message), s')) ∨
    ∃ origTrunk server, env.ready = true ∧ env.trunkOf request = some origTrunk ∧
      env.serverOf request origTrunk = some server ∧
      exec (env.init request) s =
        (.ok (origTrunk, server), { s with origTrunk := some origTrunk }) := by
  unfold init requireReady
  by_cases hready : env.ready = true
  case neg =>
    refine Or.inl ⟨fun _ _ hreaches => hready hreaches.ready, "Billing not ready.", s, ?_⟩
    rw [if_neg hready, exec_bind]
    rfl
  rw [if_pos hready]
  rcases htrunk : env.trunkOf request with _ | origTrunk
  · refine Or.inl ⟨fun _ _ hreaches => ?_, _, s, rfl⟩
    have hsome := hreaches.trunk
    rw [htrunk] at hsome
    cases hsome
  simp only [found, exec_bind, exec_pure, exec_modify]
  rcases hserver : env.serverOf request origTrunk with _ | server
  · refine Or.inl ⟨fun _ _ hreaches => ?_, _, _, rfl⟩
    have hsame := hreaches.trunk
    rw [htrunk] at hsame
    cases hsame
    have hsome := hreaches.server
    rw [hserver] at hsome
    cases hsome
  · exact Or.inr ⟨origTrunk, server, hready, rfl, hserver, rfl⟩

variable (request) in
theorem exec_processLineWithoutNumber (origTrunk : Trunk) (server : AuthServer) (s : AuthState) :
    ∃ response, exec (processLineWithoutNumber request origTrunk server) s =
      (.ok (), { s with response := response }) := by
  unfold processLineWithoutNumber
  dsimp only
  split
  · split
    · exact ⟨_, rfl⟩
    · exact ⟨s.response, rfl⟩
  · exact ⟨s.response, rfl⟩

variable (env request) in
/-- A request is stopped, or intercepted, or it is priced: pricing ends the process, or the
limits answer. -/
theorem admission_cases (s : AuthState) :
    ((∀ origTrunk server, ¬ Reaches env request origTrunk server) ∧
      ((∃ message s', exec (env.admission request) s = (.error (.calcException message), s')) ∨
        ∃ s', exec (env.admission request) s = (.ok .intercepted, s'))) ∨
    ∃ origTrunk server, Reaches env request origTrunk server ∧
      ((env.priced request origTrunk s.pricing = none ∧
          ∃ s', exec (env.admission request) s = (.error .nullPointer, s')) ∨
        ∃ pricing s', env.priced request origTrunk s.pricing = some pricing ∧
          exec (env.admission request) s =
            (.ok (.analysed (env.analysedOf request origTrunk server pricing.callInfo
              (env.limitsOf request origTrunk pricing.callInfo s.blocked).1)), s')) := by
  unfold admission
  rcases exec_init env request s with
    ⟨hnone, message, s', hexec⟩ | ⟨origTrunk, server, hready, htrunk, hserver, hexec⟩
  · exact Or.inl ⟨hnone, Or.inl ⟨message, s', by rw [exec_bind_error hexec]⟩⟩
  rw [exec_bind_ok hexec]
  dsimp only
  by_cases hintercepted : env.isIntercepted request = true
  · refine Or.inl ⟨fun _ _ hreaches => ?_, Or.inr ⟨_, by rw [if_pos hintercepted]; rfl⟩⟩
    have hfalse := hreaches.not_intercepted
    rw [hintercepted] at hfalse
    cases hfalse
  rw [if_neg hintercepted]
  -- the number of a line without number only changes the response
  obtain ⟨response, hline⟩ := exec_processLineWithoutNumber request origTrunk server
    { s with origTrunk := some origTrunk }
  rw [exec_bind_ok hline]
  refine Or.inr ⟨origTrunk, server, ⟨hready, htrunk, hserver,
    (Bool.not_eq_true _).mp hintercepted⟩, ?_⟩
  rcases hpriced : env.priced request origTrunk s.pricing with _ | pricing
  · have hcalc : exec (env.calcOrig request origTrunk)
        { s with origTrunk := some origTrunk, response := response } =
          (.error .nullPointer, { s with origTrunk := some origTrunk, response := response }) := by
      unfold calcOrig
      rw [exec_bind, exec_get]
      dsimp only
      rw [hpriced]
      rfl
    exact Or.inl ⟨rfl, _, exec_bind_error hcalc⟩
  · have hcalc : exec (env.calcOrig request origTrunk)
        { s with origTrunk := some origTrunk, response := response } =
          (.ok pricing.callInfo,
            { s with origTrunk := some origTrunk, response := response, pricing := pricing }) := by
      unfold calcOrig
      rw [exec_bind, exec_get]
      dsimp only
      rw [hpriced]
      rfl
    rw [exec_bind_ok hcalc, exec_bind_ok (exec_analyze _ _)]
    exact Or.inr ⟨pricing, _, rfl, rfl⟩

theorem Reaches.unique {origTrunk origTrunk' : Trunk} {server server' : AuthServer}
    (h : Reaches env request origTrunk server) (h' : Reaches env request origTrunk' server') :
    origTrunk' = origTrunk ∧ server' = server := by
  have htrunk := h'.trunk
  rw [h.trunk] at htrunk
  cases htrunk
  have hserver := h'.server
  rw [h.server] at hserver
  cases hserver
  exact ⟨rfl, rfl⟩

/-- The limits refuse the call of the request. -/
def Refused (env : AuthEnv) (request : RadiusAuthRequest) (blocked : AccountIdsBlocked)
    (pricing : PricingState) : Prop :=
  ∃ origTrunk server pricing', Reaches env request origTrunk server ∧
    env.priced request origTrunk pricing = some pricing' ∧
    Refuses server (env.limitsOf request origTrunk pricing'.callInfo
      (env.start blocked pricing).blocked).1

theorem accept_fallback (s : AuthState) : (env.fallback s).accept = some true := by
  unfold fallback
  split
  · rfl
  · rfl

/-- A request is rejected exactly if its trunk and its region are known, its call could be
priced, and the limits answer with a rejection or with a lock that the region has no outcome
for.  Whatever is missing or goes wrong elsewhere, the call is let through. -/
theorem rejected_iff (env : AuthEnv) (request : RadiusAuthRequest) (blocked : AccountIdsBlocked)
    (pricing : PricingState) (response : RadiusAuthResponse) (blocked' : AccountIdsBlocked)
    (h : env.process request blocked pricing = some (response, blocked')) :
    response.accept = some false ↔ Refused env request blocked pricing := by
  have hopen : Open (env.start blocked pricing) := open_start env blocked pricing
  have hadmitted := triple_admission env request _ hopen
  unfold process processBody at h
  rcases admission_cases env request (env.start blocked pricing) with
    ⟨hnone, ⟨message, s', hexec⟩ | ⟨s', hexec⟩⟩ | ⟨origTrunk, server, hreaches, hcase⟩
  · -- an exception before pricing
    rw [exec_bind_error hexec] at h
    cases h
    refine iff_of_false (by rw [accept_fallback]; decide) ?_
    exact fun ⟨_, _, _, hreaches, _⟩ => hnone _ _ hreaches
  · -- an interception
    rw [exec_bind_ok hexec] at h
    cases h
    refine iff_of_false (fun hfalse => ?_) fun ⟨_, _, _, hreaches, _⟩ => hnone _ _ hreaches
    change some true = some false at hfalse
    cases hfalse
  rcases hcase with ⟨hpriced, s', hexec⟩ | ⟨pricing', s', hpriced, hexec⟩
  · rw [exec_bind_error hexec] at h
    cases h
  -- the limits have answered
  have hrefused : Refused env request blocked pricing ↔
      Refuses server (env.limitsOf request origTrunk pricing'.callInfo
        (env.start blocked pricing).blocked).1 := by
    constructor
    · rintro ⟨origTrunk₂, server₂, pricing₂, hreaches₂, hpriced₂, hrefuses⟩
      obtain ⟨rfl, rfl⟩ := hreaches.unique hreaches₂
      have hsame : env.priced request origTrunk₂ pricing = some pricing' := hpriced
      rw [hpriced₂] at hsame
      cases hsame
      exact hrefuses
    · exact fun hrefuses => ⟨origTrunk, server, pricing', hreaches, hpriced, hrefuses⟩
  rw [hrefused]
  rw [exec_bind_ok hexec] at h
  rw [hexec] at hadmitted
  have hends : Ends (fun _ => Settled (Refuses server _)) (OpenUnrefused (Refuses server _))
      (exec (env.answer (.analysed (env.analysedOf request origTrunk server pricing'.callInfo
        (env.limitsOf request origTrunk pricing'.callInfo
          (env.start blocked pricing).blocked).1))) s') :=
    triple_answerTo env _ _ s' hadmitted
  rcases settle_cases h with ⟨s, hanswer, rfl⟩ | ⟨message, s, hanswer, rfl⟩
  · rw [hanswer] at hends
    exact Settled.reject_iff hends
  · rw [hanswer] at hends
    exact iff_of_false (by rw [accept_fallback]; decide) hends.2

theorem rejected_iff_unknownAccount :
    Refused unknownAccount { trunkName := ['a'] } ∅ BillingCall.noCounters := by
  obtain ⟨blocked', hprocess⟩ := process_unknownAccount
  exact (rejected_iff _ _ _ _ _ _ hprocess).mp rfl

end AuthEnv
end VoipBill
