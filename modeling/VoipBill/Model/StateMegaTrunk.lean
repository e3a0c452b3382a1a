import VoipBill.Model.BillingCall

/-!
# The mega trunk

An account may have numbers in several regions and one trunk service that
collects their calls.  `StateMegaTrunk` decides from the two numbers of a CDR and
the trunk it came in through how such a call is routed, and whether its legs are
charged by number or not at all.

The trunk and the numbers are looked up as of the connect time of the call; the
trunk services of an account are tested against `now`, the value of
`time(nullptr)`.
-/

namespace VoipBill

/-- `time(nullptr) <= expire_dt && activation_dt <= time(nullptr)`. -/
def ServiceTrunk.isInForce (now : Int) (serviceTrunk : ServiceTrunk) : Bool :=
  decide (now ≤ serviceTrunk.expireDt) && decide (serviceTrunk.activationDt ≤ now)

def Trunk.isConnected (trunk : Trunk) (regionId : Int) : Bool :=
  trunk.roadToRegions.contains regionId

namespace MegaTrunk

/-- What `prepareFromCdr` loads. -/
structure Prepared where
  srcTrunk : Option Trunk := none
  serviceNumberNumA : Option ServiceNumber := none
  serviceNumberNumB : Option ServiceNumber := none
  simblingRegions : List Int := []

def prepareFromCdr (r : Repository) (origRegion : Int) (cdr : Cdr) : Prepared where
  srcTrunk := r.getTrunkByName cdr.srcRoute origRegion
  serviceNumberNumA := r.getServiceNumber (atoll cdr.srcNumber)
  serviceNumberNumB := r.getServiceNumber (atoll cdr.dstNumber)
  simblingRegions := r.data.simblingRegion origRegion

/-- What `PhaseCalc` finds out. -/
structure Phase where
  isPhase1 : Bool := false
  isPhase2 : Bool := false
  isNeedForceTermAuthByNumber : Bool := false
  isNeedForceTermTarifficationSkip : Bool := false
  destTrunk : Option Trunk := none
  destRegion : Int := 0

variable (r : Repository) (state : Prepared) (now : Int)

/-- The trunk service terminates calls to the account of number B. -/
def terminates (serviceNumberNumB : ServiceNumber) (serviceTrunk : ServiceTrunk) : Bool :=
  serviceTrunk.clientAccountId == serviceNumberNumB.clientAccountId && serviceTrunk.termEnabled

/-- The trunk service originates calls of the account of number A through the
trunk. -/
def originates (srcTrunk : Trunk) (serviceNumberNumA : ServiceNumber)
    (serviceTrunk : ServiceTrunk) : Bool :=
  serviceTrunk.clientAccountId == serviceNumberNumA.clientAccountId &&
    serviceTrunk.origEnabled && srcTrunk.id == serviceTrunk.trunkId

/-- The trunk is a road to the region of the trunk service, and number A is at
home here. -/
def comesFrom (srcTrunk : Trunk) (serviceNumberNumA : ServiceNumber)
    (serviceTrunk : ServiceTrunk) : Bool :=
  serviceTrunk.clientAccountId == serviceNumberNumA.clientAccountId &&
    srcTrunk.isConnected serviceTrunk.serverId &&
      state.simblingRegions.contains serviceNumberNumA.serverId

/-- The call comes out of the trunk service and goes to another region. -/
def leavesRegion (srcTrunk : Trunk) (serviceNumberNumA : ServiceNumber)
    (serviceTrunk : ServiceTrunk) : Bool :=
  originates srcTrunk serviceNumberNumA serviceTrunk &&
    (!r.data.isRegionOnHub serviceNumberNumA.serverId &&
      (r.data.trunk serviceTrunk.trunkId).isSome)

/-- The first loop of `PhaseCalc`: it ends with the first trunk service in force
that terminates calls to number B. -/
def phaseOfNumB (serviceNumberNumB : ServiceNumber) : Option Phase :=
  ((r.data.serviceTrunkByClientId serviceNumberNumB.clientAccountId).find? fun serviceTrunk =>
    serviceTrunk.isInForce now && terminates serviceNumberNumB serviceTrunk).map
    fun serviceTrunk =>
      if state.simblingRegions.contains serviceTrunk.serverId then
        match r.data.trunk serviceTrunk.trunkId with
        | none => {}
        | some destTrunk =>
            { destTrunk := some destTrunk
              isNeedForceTermTarifficationSkip := true
              isPhase2 := true }
      else
        { destRegion := serviceTrunk.serverId
          isPhase1 := true
          isNeedForceTermAuthByNumber := true }

/-- The second loop: a call of number A from its trunk goes to the region of the
number, if that is another one. -/
def phaseOfNumA (srcTrunk : Trunk) (serviceNumberNumA : ServiceNumber) :
    List ServiceTrunk → Phase → Phase
  | [], phase => phase
  | serviceTrunk :: serviceTrunks, phase =>
      if serviceTrunk.isInForce now && originates srcTrunk serviceNumberNumA serviceTrunk then
        let destTrunk := r.data.trunk serviceTrunk.trunkId
        if !state.simblingRegions.contains serviceNumberNumA.serverId && destTrunk.isSome then
          { phase with
            destTrunk := destTrunk
            isPhase1 := true
            destRegion := serviceNumberNumA.serverId }
        else
          phaseOfNumA srcTrunk serviceNumberNumA serviceTrunks
            { phase with destTrunk := destTrunk }
      else
        phaseOfNumA srcTrunk serviceNumberNumA serviceTrunks phase

def phaseCalc : Phase :=
  match state.srcTrunk with
  | none => {}
  | some srcTrunk =>
      match state.serviceNumberNumB.bind (phaseOfNumB r state now) with
      | some phase => phase
      | none =>
          match state.serviceNumberNumA with
          | none => {}
          | some serviceNumberNumA =>
              phaseOfNumA r state now srcTrunk serviceNumberNumA
                (r.data.serviceTrunkByClientId serviceNumberNumA.clientAccountId) {}

/-- A loop over the trunk services in force of the account of number A. -/
def anyInForce (test : Trunk → ServiceNumber → ServiceTrunk → Bool) : Bool :=
  match state.srcTrunk, state.serviceNumberNumA with
  | some srcTrunk, some serviceNumberNumA =>
      (r.data.serviceTrunkByClientId serviceNumberNumA.clientAccountId).any fun serviceTrunk =>
        serviceTrunk.isInForce now && test srcTrunk serviceNumberNumA serviceTrunk
  | _, _ => false

def isForceOrgAuthByNumber : Bool := anyInForce r state now (comesFrom state)

/-- A call that comes out of a mega trunk and goes to another region is not
charged here. -/
def isForceOrigTarifficationSkip : Bool := anyInForce r state now (leavesRegion r)

def isForceTermAuthByNumber : Bool := (phaseCalc r state now).isNeedForceTermAuthByNumber

def isForceTermTarifficationSkip : Bool :=
  (phaseCalc r state now).isNeedForceTermTarifficationSkip

def isTechOrig : Bool := state.srcTrunk.elim false (·.techTrunk)

/-- What the pricing of the legs asks for. -/
def answers : StateMegaTrunk where
  isForceOrgAuthByNumber := isForceOrgAuthByNumber r state now
  isForceTermAuthByNumber := isForceTermAuthByNumber r state now
  isForceOrigTarifficationSkip := isForceOrigTarifficationSkip r state now

end MegaTrunk
end VoipBill
