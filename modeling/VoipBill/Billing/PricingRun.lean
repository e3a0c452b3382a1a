import VoipBill.Billing.PricingFrame
import VoipBill.Lib.Run

/-!
# Pricing and adding leg after leg

`Billing::calc` prices the legs of finished calls and adds each to the
counters.  A run prices and adds one leg at a time, over fixed tables; it is
undefined where pricing uses a null pointer.  The list of added calls is a ghost
that the statements about runs need.

`step_of_triple` turns a triple about the body of `calc` into a fact about a
step of a run.
-/

namespace VoipBill

open Lib Lib.Hoare

/-- What does not change while calls are priced. -/
structure BillingEnv where
  conf : Conf := {}
  data : DataContainer
  origRegion : Int := 0

/-- A leg to be priced.  The numbers of a terminating leg are those its
originating leg was priced with. -/
structure Leg where
  cdr : Cdr
  orig : Bool
  id : Int := 0
  peerId : Int := 0
  srcNumber : Int := atoll cdr.srcNumber
  dstNumber : Int := atoll cdr.dstNumber
  stateMegaTrunk : Option StateMegaTrunk := none
  now : Int := 0

/-- The counters, and the calls added so far. -/
structure PricingSys where
  billingData : DataBillingContainer
  currentNNPPackageMinute : StatsNNPPackageMinuteManager
  numberRanges : IntMap NNPNumberRange
  added : List Call

namespace Leg

def call (leg : Leg) : Call :=
  { Call.ofCdr leg.cdr leg.orig with
    id := leg.id
    peerId := leg.peerId
    srcNumber := leg.srcNumber
    dstNumber := leg.dstNumber
    hash := leg.cdr.hash }

def pricingEnv (env : BillingEnv) (leg : Leg) : PricingEnv where
  conf := env.conf
  repository := Repository.prepare env.data leg.cdr.connectTime leg.now
  cdr := leg.cdr
  stateMegaTrunk := leg.stateMegaTrunk
  origRegion := env.origRegion
  now := leg.now

end Leg

namespace BillingCall

/-- A leg that is priced ends where its pricing ended. -/
theorem eq_of_calcLeg {env : PricingEnv} {s s' : PricingState} (h : calcLeg env s = some s') :
    s' = (exec (tariffication env) s).2 := by
  unfold calcLeg at h
  split at h
  case h_1 => exact absurd h (by simp)
  case h_2 hexec => rw [hexec, Option.some.inj h]

end BillingCall

namespace PricingSys

/-- Nothing is counted yet. -/
def empty : PricingSys where
  billingData := DataBillingContainer.empty
  currentNNPPackageMinute := UsageManager.empty
  numberRanges := ∅
  added := []

/-- The state the pricing of a leg starts in. -/
def start (s : PricingSys) (leg : Leg) : PricingState where
  callInfo := { call := leg.call }
  billingData := s.billingData
  currentNNPPackageMinute := s.currentNNPPackageMinute
  numberRanges := s.numberRanges

/-- Add the priced leg. -/
def add (s : PricingSys) (priced : PricingState) : PricingSys where
  billingData := priced.billingData.addCall priced.callInfo
  currentNNPPackageMinute := priced.currentNNPPackageMinute
  numberRanges := priced.numberRanges
  added := s.added ++ [priced.callInfo.call]

def step (env : BillingEnv) (s : PricingSys) (leg : Leg) : Option PricingSys :=
  (BillingCall.calcLeg (leg.pricingEnv env) (s.start leg)).map s.add

/-- What holds however the pricing of a leg ends holds of the priced leg. -/
theorem step_of_triple {env : BillingEnv} {s t : PricingSys} {leg : Leg}
    {P Q : PricingState → Prop}
    (h : Triple P (BillingCall.tariffication (leg.pricingEnv env)) (fun _ => Q) Q)
    (hP : P (s.start leg)) (hstep : step env s leg = some t) :
    ∃ priced, Q priced ∧ t = s.add priced := by
  obtain ⟨priced, hcalc, rfl⟩ := Option.map_eq_some_iff.mp hstep
  refine ⟨priced, ?_, rfl⟩
  have hends := h _ hP
  unfold BillingCall.calcLeg at hcalc
  generalize exec (BillingCall.tariffication (leg.pricingEnv env)) (s.start leg) = result
    at hends hcalc
  match result with
  | (.ok _, s') =>
      rw [← Option.some.inj hcalc]
      exact hends
  | (.error (.calcException _), s') =>
      rw [← Option.some.inj hcalc]
      exact hends
  | (.error .nullPointer, s') => exact absurd hcalc (by simp)

end PricingSys

/-! ## Adding a call to the usage counters -/

namespace DataBillingContainer

/-- The rows of the package counters after a call was added. -/
theorem addCall_statsPackage (d : DataBillingContainer) (callInfo : CallInfo) :
    (d.addCall callInfo).statsPackage.rows =
        (StatsPackageManager.add d.statsPackage callInfo).rows ∧
      (d.addCall callInfo).statsPackage.lastStatId =
        (StatsPackageManager.add d.statsPackage callInfo).lastStatId := by
  rcases d.addCall_cases callInfo with heq | heq
  · rw [heq]
    exact ⟨rfl, rfl⟩
  · rw [heq]
    exact ⟨rfl, rfl⟩

end DataBillingContainer

namespace BillingCall

section Basic

variable {α β : Type} {P E : PricingState → Prop} {S : β → PricingState → Prop}
  {g : α → Pricing β}

theorem triple_getCallInfo {g : CallInfo → Pricing β}
    (hg : ∀ callInfo, Triple (fun s => P s ∧ s.callInfo = callInfo) (g callInfo) S E) :
    Triple P (getCallInfo >>= g) S E :=
  fun s hs => hg s.callInfo s ⟨hs, rfl⟩

theorem triple_getCall {g : Call → Pricing β}
    (hg : ∀ call, Triple (fun s => P s ∧ s.callInfo.call = call) (g call) S E) :
    Triple P (getCall >>= g) S E :=
  fun s hs => hg s.callInfo.call s ⟨hs, rfl⟩

theorem triple_getNNPNumberRange {env : PricingEnv} {num : Int}
    {g : Option NNPNumberRange → Pricing β} (hg : ∀ range, Triple P (g range) S E) :
    Triple P (getNNPNumberRange env num >>= g) S E :=
  fun s hs => hg _ s hs

theorem triple_deref {o : Option α} (hE : ∀ s, P s → E s)
    (hg : ∀ a, o = some a → Triple P (g a) S E) : Triple P (deref o >>= g) S E := by
  cases o with
  | none => exact fun s hs => hE s hs
  | some a => exact hg a rfl

/-- A pointer that is known not to be null. -/
theorem triple_deref_some {a : α} (hg : Triple P (g a) S E) :
    Triple P (deref (some a) >>= g) S E := hg

theorem triple_orThrow {message : String} {o : Option α} (hE : ∀ s, P s → E s)
    (hg : ∀ a, o = some a → Triple P (g a) S E) : Triple P (orThrow message o >>= g) S E := by
  cases o with
  | none => exact fun s hs => hE s hs
  | some a => exact hg a rfl

theorem triple_modifyCallInfo {Q : Unit → PricingState → Prop} {f : CallInfo → CallInfo}
    (h : ∀ s, P s → Q () { s with callInfo := f s.callInfo }) :
    Triple P (modifyCallInfo f) Q E :=
  triple_modify h

theorem triple_modifyCall {Q : Unit → PricingState → Prop} {f : Call → Call}
    (h : ∀ s, P s →
      Q () { s with callInfo := { s.callInfo with call := f s.callInfo.call } }) :
    Triple P (modifyCall f) Q E :=
  triple_modify h

theorem triple_onlyIf {condition : Bool} {x : Pricing Unit} {Q : Unit → PricingState → Prop}
    (hx : condition = true → Triple P x Q E) (hQ : condition = false → ∀ s, P s → Q () s) :
    Triple P (onlyIf condition x) Q E := by
  cases condition with
  | false => exact fun s hs => hQ rfl s hs
  | true => exact hx rfl

theorem triple_whenSome {o : Option α} {x : α → Pricing Unit} {Q : Unit → PricingState → Prop}
    (hx : ∀ a, o = some a → Triple P (x a) Q E) (hQ : o = none → ∀ s, P s → Q () s) :
    Triple P (whenSome o x) Q E := by
  cases o with
  | none => exact fun s hs => hQ rfl s hs
  | some a => exact hx a rfl

end Basic

/-! ## Where a leg can be charged

Up to the point where packages are looked at nothing is charged: `Unspent`.  On
the way there a leg by number gets its number service, and an originating leg by
trunk gets one of the services of its trunk. -/

section Paths

variable (env : PricingEnv) (c₀ : Charge)

/-- The charge is still the one pricing started with. -/
def Unspent (s : PricingState) : Prop := s.charge = c₀

/-- The leg belongs to a number service. -/
def UnspentNumber (s : PricingState) : Prop :=
  Unspent c₀ s ∧ ∃ serviceNumber, s.services.serviceNumber = some serviceNumber ∧
    s.services.numberServiceId = serviceNumber.id

/-- The leg belongs to no number service, and to a service of the trunk or none. -/
def UnspentTrunk (trunk : Trunk) (s : PricingState) : Prop :=
  Unspent c₀ s ∧ s.services.serviceNumber = none ∧
    ∀ serviceTrunk, s.services.serviceTrunk = some serviceTrunk →
      serviceTrunk ∈ env.repository.getAllServiceTrunk trunk.id

variable {env c₀}

theorem Unspent.of_charge {s s' : PricingState} (h : s'.charge = s.charge) (hs : Unspent c₀ s) :
    Unspent c₀ s' :=
  h.trans hs

theorem UnspentNumber.of_focus {s s' : PricingState} (h : s'.focus = s.focus)
    (hs : UnspentNumber c₀ s) : UnspentNumber c₀ s' := by
  obtain ⟨hservices, hcharge⟩ := Prod.mk.inj h
  rw [UnspentNumber, hservices]
  exact ⟨hs.1.of_charge hcharge, hs.2⟩

theorem UnspentTrunk.of_focus {trunk : Trunk} {s s' : PricingState} (h : s'.focus = s.focus)
    (hs : UnspentTrunk env c₀ trunk s) : UnspentTrunk env c₀ trunk s' := by
  obtain ⟨hservices, hcharge⟩ := Prod.mk.inj h
  rw [UnspentTrunk, hservices]
  exact ⟨hs.1.of_charge hcharge, hs.2⟩

/-- `setupTrunk` sets the trunk and no other service. -/
theorem services_setupTrunk (env : PricingEnv) (s : PricingState) :
    (exec (setupTrunk env) s).2.services =
      { s.services with
        trunk := env.repository.getTrunkByName (getRoute env.cdr s.callInfo.call)
          env.origRegion } :=
  keeps_services (keeps_setupTrunkServer env _) _

variable {E : PricingState → Prop}

/-- `setupServiceNumber` stops, or gives the leg its number service. -/
theorem triple_setupServiceNumber (hE : ∀ s, Unspent c₀ s → E s) :
    Triple (Unspent c₀) (setupServiceNumber env) (fun _ => UnspentNumber c₀) E := by
  unfold setupServiceNumber
  refine triple_getCall fun call => ?_
  refine triple_bind (R := fun _ s => Unspent c₀ s ∧
    s.services.serviceNumber = env.repository.getServiceNumber (getNumber call))
    (triple_modifyCallInfo fun s hs => ⟨hs.1, rfl⟩) fun _ => ?_
  refine triple_orThrow (fun s hs => hE s hs.1) fun serviceNumber hfound => ?_
  exact triple_modifyCallInfo fun s hs => ⟨hs.1, serviceNumber, hs.2.trans hfound, rfl⟩

/-- The trunk service of a leg by number changes neither number nor charge. -/
theorem triple_setupServiceTrunkForNumber (hE : ∀ s, UnspentNumber c₀ s → E s) :
    Triple (UnspentNumber c₀) (setupServiceTrunkForNumber env) (fun _ => UnspentNumber c₀) E := by
  unfold setupServiceTrunkForNumber
  refine triple_getCallInfo fun callInfo => ?_
  refine triple_deref (fun s hs => hE s hs.1) fun trunk _ => ?_
  refine triple_bind (R := fun _ => UnspentNumber c₀)
    (triple_modifyCallInfo fun s hs => ⟨hs.1.1, hs.1.2⟩) fun _ => ?_
  refine (keeps_checkForeignTrunk trunk _).andThen UnspentNumber.of_focus hE fun _ => ?_
  exact triple_whenSome
    (fun _ _ => triple_modifyCallInfo fun s hs => ⟨hs.1, hs.2⟩) fun _ s hs => hs

/-- Applying an order of a trunk gives the leg one of the services of the trunk. -/
theorem triple_applyOrder {trunk : Trunk} {order : ServiceTrunkOrder}
    (horder : ∃ serviceTrunk ∈ env.repository.getAllServiceTrunk trunk.id,
      order.serviceTrunk = some serviceTrunk) :
    Triple (UnspentTrunk env c₀ trunk) (applyOrder order)
      (fun _ => UnspentTrunk env c₀ trunk) E := by
  obtain ⟨found, hmem, heq⟩ := horder
  refine triple_modifyCallInfo fun s hs => ⟨hs.1, hs.2.1, fun serviceTrunk h => ?_⟩
  rw [← Option.some.inj (heq.symm.trans h)]
  exact hmem

/-- The settings of an originating trunk are those of one of its services. -/
theorem triple_setupEffectiveOrigTrunkSettings {trunk : Trunk}
    (hE : ∀ s, UnspentTrunk env c₀ trunk s → E s) :
    Triple (fun s => UnspentTrunk env c₀ trunk s ∧ s.services.trunk = some trunk)
      (setupEffectiveOrigTrunkSettings env) (fun _ => UnspentTrunk env c₀ trunk) E := by
  unfold setupEffectiveOrigTrunkSettings
  refine triple_getCallInfo fun callInfo => ?_
  refine triple_deref (fun s hs => hE s hs.1.1) fun found hfound => ?_
  -- the trunk that is used is the one the leg has
  have htrunk : ∀ s : PricingState, (UnspentTrunk env c₀ trunk s ∧
      s.services.trunk = some trunk) ∧ s.callInfo = callInfo → found = trunk := by
    intro s hs
    have hsome : s.callInfo.trunk = some trunk := hs.1.2
    rw [hs.2, hfound] at hsome
    exact Option.some.inj hsome
  refine triple_of_fact htrunk fun heq => ?_
  subst heq
  refine Triple.pre (P := UnspentTrunk env c₀ found) ?_ fun s hs => hs.1.1
  refine triple_bind (R := fun orders s => UnspentTrunk env c₀ found s ∧
    ∀ order ∈ orders, ∃ serviceTrunk ∈ env.repository.getAllServiceTrunk found.id,
      order.serviceTrunk = some serviceTrunk) ?_ fun orders => ?_
  · exact fun s hs =>
      ⟨hs, fun order => Repository.serviceTrunk_of_mem_getTrunkSettingsOrderList⟩
  · refine triple_whenSome (fun order hhead => ?_) fun _ s hs => hs.1
    have hmem := Repository.mem_orderOrigTrunkSettingsOrderList (List.mem_of_head? hhead)
    refine triple_of_fact (fun s hs => hs.2 order hmem) fun hservice => ?_
    refine triple_bind ((triple_applyOrder hservice).pre fun s hs => hs.1) fun _ => ?_
    exact (keeps_applyNNPOrder order).triple UnspentTrunk.of_focus hE fun _ _ hs => hs

/-! ## The whole of `calc` -/

section Whole

variable {Q : PricingState → Prop}

/-- The trunk a leg comes in or goes out through. -/
def legTrunk (env : PricingEnv) (orig : Bool) : Option Trunk :=
  env.repository.getTrunkByName (if orig then env.cdr.srcRoute else env.cdr.dstRoute)
    env.origRegion

/-- The paths that may charge an originating leg: version 5 by number, version 4
by number, version 4 by trunk. -/
structure ChargingPaths (env : PricingEnv) (c₀ : Charge) (Q : PricingState → Prop) : Prop where
  unspent : ∀ s, Unspent c₀ s → Q s
  withVatFlag : ∀ s, Q s → Q { s with callInfo := withVatFlag env s.callInfo }
  nnpByNumber : c₀.orig = true → Triple (UnspentNumber c₀) (calcOrigNNPByNumber env) (fun _ => Q) Q
  byNumber : c₀.orig = true → Triple (UnspentNumber c₀) (calcOrigByNumberV4 env) (fun _ => Q) Q
  byTrunk : c₀.orig = true → ∀ trunk, legTrunk env true = some trunk →
    (trunk.authByNumber || isNeedForceCalcByNumber env true) = false →
    Triple (UnspentTrunk env c₀ trunk) (calcByTrunkV4 env true) (fun _ => Q) Q

theorem triple_calcOrigByNumber (h : ChargingPaths env c₀ Q)
    (horig : c₀.orig = true) :
    Triple (UnspentNumber c₀) (calcOrigByNumber env) (fun _ => Q) Q := by
  have hnumber : ∀ s, UnspentNumber c₀ s → Q s := fun s hs => h.unspent s hs.1
  unfold calcOrigByNumber
  refine keeps_getCall.andThen UnspentNumber.of_focus hnumber fun call => ?_
  dsimp only
  split
  case isTrue => exact h.nnpByNumber horig
  case isFalse =>
    split
    case isTrue => exact h.byNumber horig
    case isFalse => exact triple_throw hnumber

theorem triple_calcByNumber (h : ChargingPaths env c₀ Q) (fTarifficationSkip : Bool) :
    Triple (Unspent c₀) (calcByNumber env fTarifficationSkip) (fun _ => Q) Q := by
  have hnumber : ∀ s, UnspentNumber c₀ s → Q s := fun s hs => h.unspent s hs.1
  unfold calcByNumber
  refine keeps_getCall.andThen Unspent.of_charge h.unspent fun call => ?_
  refine (keeps_onlyIf ((keeps_processLineWithoutNumber _).part PricingState.charge
    fun _ => rfl)).andThen Unspent.of_charge h.unspent fun _ => ?_
  refine triple_bind (triple_setupServiceNumber h.unspent) fun _ => ?_
  refine triple_bind (triple_setupServiceTrunkForNumber hnumber) fun _ => ?_
  refine (keeps_setupAccount env).andThen UnspentNumber.of_focus hnumber fun _ => ?_
  refine triple_getCallInfo fun callInfo => ?_
  split
  case isTrue horig =>
    have hcharge : ∀ s, UnspentNumber c₀ s ∧ s.callInfo = callInfo → c₀.orig = true := by
      rintro s ⟨hs, rfl⟩
      rw [← hs.1]
      exact horig
    refine triple_of_fact hcharge fun horig₀ => ?_
    refine Triple.pre (P := UnspentNumber c₀) ?_ fun s hs => hs.1
    refine triple_deref hnumber fun server _ => ?_
    split
    case isTrue =>
      exact (keeps_modifyCall fun _ => rfl : Keeps PricingState.focus _).triple
        UnspentNumber.of_focus hnumber fun _ => hnumber
    case isFalse =>
      refine triple_onlyIf (fun _ => ?_) fun _ => hnumber
      exact triple_calcOrigByNumber h horig₀
  case isFalse =>
    refine Triple.pre (P := UnspentNumber c₀) ?_ fun s hs => hs.1
    exact (keeps_calcTermByNumber env).triple UnspentNumber.of_focus hnumber fun _ => hnumber

/-- Only version 4 legs by trunk look at packages. -/
theorem triple_calcTrunkService {P : PricingState → Prop} {orig : Bool}
    (hP : ∀ {s s' : PricingState}, s'.focus = s.focus → P s → P s') (hQ : ∀ s, P s → Q s)
    (hv4 : Triple P (calcByTrunkV4 env orig) (fun _ => Q) Q) :
    Triple P (calcTrunkService env orig) (fun _ => Q) Q := by
  unfold calcTrunkService
  refine keeps_setupServiceTrunk.andThen hP hQ fun _ => ?_
  refine (keeps_setupAccount env).andThen hP hQ fun _ => ?_
  refine keeps_getCallInfo.andThen hP hQ fun callInfo => ?_
  split
  case isTrue => exact hv4
  case isFalse =>
    split
    case isTrue =>
      refine (keeps_deref _).andThen hP hQ fun nnpPackage => ?_
      refine (keeps_setupBilledTimeNNP env nnpPackage).andThen hP hQ fun _ => ?_
      refine (keeps_setupNNPInterconnect env).andThen hP hQ fun _ => ?_
      exact keeps_setupNNPCost.triple hP hQ fun _ => hQ
    case isFalse => exact triple_throw hQ

theorem keeps_calcByTrunkV4 : Keeps PricingState.focus (calcByTrunkV4 env false) := by
  unfold calcByTrunkV4
  refine keeps_bind (keeps_pure ()) fun _ => ?_
  refine keeps_bind (keeps_setupFoundPrice env) fun _ => ?_
  refine keeps_bind (keeps_setupBilledTime env) fun _ => ?_
  refine keeps_bind (keeps_pure ()) fun _ => ?_
  exact keeps_bind keeps_setupInterconnect fun _ => keeps_setupCost

theorem triple_calcByTrunk {trunk : Trunk} (h : ChargingPaths env c₀ Q)
    (htrunk : legTrunk env c₀.orig = some trunk)
    (hauth : (trunk.authByNumber || isNeedForceCalcByNumber env c₀.orig) = false) :
    Triple (fun s => UnspentTrunk env c₀ trunk s ∧ s.services.trunk = some trunk)
      (calcByTrunk env) (fun _ => Q) Q := by
  have hunspent : ∀ s, UnspentTrunk env c₀ trunk s → Q s := fun s hs => h.unspent s hs.1
  have hcharge : ∀ call s, (UnspentTrunk env c₀ trunk s ∧ s.services.trunk = some trunk) ∧
      s.callInfo.call = call → call.orig = c₀.orig := by
    rintro call s ⟨hs, rfl⟩
    rw [← hs.1.1]
    rfl
  unfold calcByTrunk setupEffectiveTrunkSettings
  refine triple_getCall fun call => triple_of_fact (hcharge call) fun horig => ?_
  rw [horig]
  refine Triple.pre (P := fun s => UnspentTrunk env c₀ trunk s ∧ s.services.trunk = some trunk)
    ?_ fun s hs => hs.1
  cases horig₀ : c₀.orig with
  | true =>
      refine triple_bind (triple_setupEffectiveOrigTrunkSettings hunspent) fun _ => ?_
      rw [horig₀] at htrunk hauth
      exact triple_calcTrunkService UnspentTrunk.of_focus hunspent
        (h.byTrunk horig₀ trunk htrunk hauth)
  | false =>
      refine Triple.pre (P := Unspent c₀) ?_ fun s hs => hs.1.1
      refine (keeps_setupEffectiveTermTrunkSettings env).andThen
        Unspent.of_charge h.unspent fun _ => ?_
      refine triple_calcTrunkService (fun hfocus => Unspent.of_charge (Prod.mk.inj hfocus).2)
        h.unspent ?_
      exact (keeps_charge keeps_calcByTrunkV4).triple Unspent.of_charge h.unspent
        fun _ => h.unspent

/-- A leg that belongs to no service yet, with its trunk found. -/
def TrunkFound (env : PricingEnv) (c₀ : Charge) (s : PricingState) : Prop :=
  Unspent c₀ s ∧ s.services.serviceNumber = none ∧ s.services.serviceTrunk = none ∧
    s.services.trunk = legTrunk env c₀.orig

theorem TrunkFound.of_focus {s s' : PricingState} (h : s'.focus = s.focus)
    (hs : TrunkFound env c₀ s) : TrunkFound env c₀ s' := by
  obtain ⟨hservices, hcharge⟩ := Prod.mk.inj h
  rw [TrunkFound, hservices]
  exact ⟨hs.1.of_charge hcharge, hs.2⟩

theorem triple_setupTrunk (hE : ∀ s, Unspent c₀ s → E s) :
    Triple (fun s => Unspent c₀ s ∧ s.services.serviceNumber = none ∧
        s.services.serviceTrunk = none)
      (setupTrunk env) (fun _ => TrunkFound env c₀) E := by
  intro s hs
  have hcharge : (exec (setupTrunk env) s).2.charge = c₀ := (keeps_setupTrunk env s).trans hs.1
  have horig : s.callInfo.call.orig = c₀.orig := congrArg Charge.orig hs.1
  have hservices := services_setupTrunk env s
  rw [getRoute, horig] at hservices
  generalize exec (setupTrunk env) s = result at hcharge hservices
  match result with
  | (.ok _, s') =>
      refine ⟨hcharge, ?_⟩
      rw [hservices]
      exact ⟨hs.2.1, hs.2.2, rfl⟩
  | (.error _, s') => exact hE s' hcharge

theorem triple_charging (h : ChargingPaths env c₀ Q) :
    Triple (TrunkFound env c₀) (charging env c₀.orig) (fun _ => Q) Q := by
  have hfound : ∀ s, TrunkFound env c₀ s → Q s := fun s hs => h.unspent s hs.1
  unfold charging
  refine triple_getCallInfo fun callInfo => ?_
  refine triple_deref (fun s hs => hfound s hs.1) fun trunk htrunk => ?_
  have hleg : ∀ s, TrunkFound env c₀ s ∧ s.callInfo = callInfo →
      legTrunk env c₀.orig = some trunk := by
    rintro s ⟨hs, rfl⟩
    rw [← hs.2.2.2]
    exact htrunk
  refine triple_of_fact hleg fun hsome => ?_
  refine Triple.pre (P := TrunkFound env c₀) ?_ fun s hs => hs.1
  split
  case isTrue => exact (triple_calcByNumber h _).pre fun s hs => hs.1
  case isFalse hauth =>
    refine (triple_calcByTrunk h hsome (Bool.eq_false_iff.mpr hauth)).pre fun s hs => ?_
    refine ⟨⟨hs.1, hs.2.1, fun serviceTrunk hservice => ?_⟩, hs.2.2.2.trans hsome⟩
    exact absurd (hs.2.2.1.symm.trans hservice) (by simp)

/-- **The rule of `calc`.**  What holds of an uncharged leg, and is established
by each of the three paths that may charge an originating leg, holds of the leg
however its pricing ends. -/
theorem triple_tariffication (h : ChargingPaths env c₀ Q) :
    Triple (fun s => Unspent c₀ s ∧ s.services.serviceNumber = none ∧
        s.services.serviceTrunk = none)
      (tariffication env) (fun _ => Q) Q := by
  have hfound : ∀ s, TrunkFound env c₀ s → Q s := fun s hs => h.unspent s hs.1
  unfold tariffication
  refine triple_getCall fun call => triple_of_fact ?_ fun (horig : call.orig = c₀.orig) => ?_
  · rintro s ⟨hs, rfl⟩
    exact congrArg Charge.orig hs.1
  dsimp only
  rw [horig]
  refine triple_bind ((triple_setupTrunk h.unspent).pre fun s hs => hs.1) fun _ => ?_
  refine (keeps_classification env c₀.orig).andThen TrunkFound.of_focus hfound fun _ => ?_
  refine triple_bind (triple_charging h) fun _ => ?_
  exact triple_modifyCallInfo h.withVatFlag

end Whole

end Paths

end BillingCall
end VoipBill
