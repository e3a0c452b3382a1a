import VoipBill.Billing.PricingRun
import VoipBill.Model.StateMegaTrunk

/-!
# Billing a CDR

`calcCdr` is the body of the loop of `Billing::calc`.  A CDR of a technical leg of a mega trunk
is dropped; the two legs of any other are priced one after the other, and added
after both are priced.  The second leg takes over the numbers of the first as its
pricing left them.

`calcCurrentCalls` prices the calls in progress against the same counters, and
adds them to counters of its own that it publishes at the end.
-/

namespace VoipBill

/-- What becomes of a CDR: nothing is written, or two calls are. -/
inductive CdrOutcome where
  | skipped
  | billed (orig term : CallInfo)

/-- The counters and tables before a leg is priced. -/
def PricingSys.idle (s : PricingSys) : PricingState where
  callInfo := { call := {} }
  billingData := s.billingData
  currentNNPPackageMinute := s.currentNNPPackageMinute
  numberRanges := s.numberRanges

namespace Billing

variable (env : BillingEnv) (now : Int) (cdr : Cdr)

def repository : Repository := Repository.prepare env.data cdr.connectTime now

def preparedMegaTrunk : MegaTrunk.Prepared :=
  MegaTrunk.prepareFromCdr (repository env now cdr) env.origRegion cdr

/-- The legs of the CDR are not written. -/
def isTarifficationSkip : Bool :=
  MegaTrunk.isForceOrigTarifficationSkip (repository env now cdr)
      (preparedMegaTrunk env now cdr) now ||
    MegaTrunk.isForceTermTarifficationSkip (repository env now cdr)
      (preparedMegaTrunk env now cdr) now ||
    MegaTrunk.isTechOrig (preparedMegaTrunk env now cdr)

def stateMegaTrunk : StateMegaTrunk :=
  MegaTrunk.answers (repository env now cdr) (preparedMegaTrunk env now cdr) now

def origLeg (origId termId : Int) : Leg where
  cdr := cdr
  orig := true
  id := origId
  peerId := termId
  stateMegaTrunk := some (stateMegaTrunk env now cdr)
  now := now

def termLeg (origId termId : Int) (origCall : Call) : Leg where
  cdr := cdr
  orig := false
  id := termId
  peerId := origId
  srcNumber := origCall.srcNumber
  dstNumber := origCall.dstNumber
  stateMegaTrunk := some (stateMegaTrunk env now cdr)
  now := now

/-- Price a leg; the counters and tables are those `s` has come to. -/
def calcNext (s : PricingState) (leg : Leg) : Option PricingState :=
  BillingCall.calcLeg (leg.pricingEnv env) { s with callInfo := { call := leg.call } }

/-- Price the originating leg, then the terminating one. -/
def calcLegs (origId termId : Int) (s : PricingSys) : Option (PricingState × PricingState) :=
  (calcNext env s.idle (origLeg env now cdr origId termId)).bind fun orig =>
    (calcNext env orig (termLeg env now cdr origId termId orig.callInfo.call)).map fun term =>
      (orig, term)

/-- Add both legs after both are priced. -/
def addCalls (s : PricingSys) (orig term : PricingState) : PricingSys where
  billingData := (term.billingData.addCall orig.callInfo).addCall term.callInfo
  currentNNPPackageMinute := term.currentNNPPackageMinute
  numberRanges := term.numberRanges
  added := s.added ++ [orig.callInfo.call, term.callInfo.call]

/-- One turn of the loop of `Billing::calc`. -/
def calcCdr (s : PricingSys) : Option (CdrOutcome × PricingSys) :=
  if isTarifficationSkip env now cdr then
    some (.skipped, s)
  else
    let lastCallId := s.billingData.calls.realtimeLastId
    (calcLegs env now cdr (lastCallId + 1) (lastCallId + 2) s).map fun legs =>
      (.billed legs.1.callInfo legs.2.callInfo, addCalls s legs.1 legs.2)

end Billing

/-! ## The calls in progress -/

/-- What `calcCurrentCalls` builds anew and publishes. -/
structure CurrentStats where
  callsWaitSaving : List Call
  statsAccount : StatsAccountManager
  statsFreemin : StatsFreeminManager
  statsPackage : StatsPackageManager
  statsTrunkSettings : StatsTrunkSettingsManager
  statsNNPPackageMinute : StatsNNPPackageMinuteManager

namespace CurrentStats

def new : CurrentStats where
  callsWaitSaving := []
  statsAccount := StatsAccountManager.empty
  statsFreemin := UsageManager.empty
  statsPackage := UsageManager.empty
  statsTrunkSettings := UsageManager.empty
  statsNNPPackageMinute := UsageManager.empty

/-- Add a leg to the counters and to the calls. -/
def add (c : CurrentStats) (callInfo : CallInfo) : CurrentStats where
  callsWaitSaving := c.callsWaitSaving ++ [callInfo.call]
  statsAccount := c.statsAccount.add callInfo
  statsFreemin := StatsFreeminManager.add c.statsFreemin callInfo
  statsPackage := StatsPackageManager.add c.statsPackage callInfo
  statsTrunkSettings := StatsTrunkSettingsManager.add c.statsTrunkSettings callInfo
  statsNNPPackageMinute := StatsNNPPackageMinuteManager.add c.statsNNPPackageMinute callInfo

end CurrentStats

namespace Billing

/-- One turn of the loop of `Billing::calcCurrentCalls`: no CDR is skipped, the
legs have no ids and no hash, and they are added to the new counters only. -/
def calcCurrentCall (env : BillingEnv) (now : Int) (s : PricingSys × CurrentStats) (cdr : Cdr) :
    Option (PricingSys × CurrentStats) :=
  (calcLegs env now { cdr with hash := [] } 0 0 s.1).map fun legs =>
    ({ s.1 with
        billingData := legs.2.billingData
        currentNNPPackageMinute := legs.2.currentNNPPackageMinute
        numberRanges := legs.2.numberRanges },
      (s.2.add legs.1.callInfo).add legs.2.callInfo)

/-- The counters it publishes, and what pricing has left of the stored ones. -/
def calcCurrentCalls (env : BillingEnv) (now : Int) (currentCdrs : List Cdr) (s : PricingSys) :
    Option (PricingSys × CurrentStats) :=
  Lib.run (calcCurrentCall env now) (s, CurrentStats.new) currentCdrs

end Billing
end VoipBill
