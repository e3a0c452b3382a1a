import VoipBill.Auth.RadiusRequest
import VoipBill.Lib.Run
import VoipBill.Lists.TableScans

/-!
# A call to a mega trunk on its way through the regions

Every region decides on its own: in phase 1 it sends the call to another region, in phase 2 to
the trunk that collects the calls of the account.  All regions load the numbers and the trunk
services of all regions, and only their own trunks.

* `transfers_le_one`: the regions do not send a call around; it is transferred once at most;
* `collects`: the phases of a call to an account with a terminating trunk service lead to that
  trunk, at once or after one transfer.

Both are about one number A, one set of tables and one time in all regions, and need that a
region belongs to itself (`mem_getSimblingRegion_self`), which it does if it is among the
servers.  What the limits and the routes of a region make of the call is not part of them.
-/

namespace VoipBill

open Lib Lib.BinarySearch

/-! ## Regions on one hub -/

/-- A server is on its own hub, with or without a hub. -/
theorem mem_getSimblingRegion_self {data : List ServerRow}
    (hsorted : data.Pairwise fun a b => a.id ≤ b.id) {id : Int}
    (hmem : id ∈ data.map fun server => server.id) :
    id ∈ ServerList.getSimblingRegion data id := by
  obtain ⟨server, hserver, rfl⟩ := List.mem_map.mp hmem
  unfold ServerList.getSimblingRegion ServerList.find
  rw [findById_eq_find? hsorted]
  rcases hfound : data.find? fun row => decide (row.id = server.id) with _ | found
  · have hnot := List.find?_eq_none.mp hfound server hserver
    simp at hnot
  have hid : found.id = server.id := by simpa using List.find?_some hfound
  rw [hfound]
  dsimp only
  split
  · refine List.mem_map.mpr ⟨found, ?_, hid⟩
    exact List.mem_filter.mpr ⟨List.mem_of_find?_eq_some hfound, by simp⟩
  · exact List.mem_singleton_self _

/-! ## The phases -/

namespace MegaTrunk

variable {r : Repository} {state : Prepared} {now : Int}

/-- The trunk service that collects the calls to a number. -/
def collector (r : Repository) (now : Int) (serviceNumberNumB : Option ServiceNumber) :
    Option ServiceTrunk :=
  serviceNumberNumB.bind fun numB =>
    (r.data.serviceTrunkByClientId numB.clientAccountId).find? fun serviceTrunk =>
      serviceTrunk.isInForce now && terminates numB serviceTrunk

/-- The phase of a call with a collecting trunk. -/
def phaseTo (r : Repository) (state : Prepared) (serviceTrunk : ServiceTrunk) : Phase :=
  if state.simblingRegions.contains serviceTrunk.serverId then
    match r.data.trunk serviceTrunk.trunkId with
    | none => {}
    | some destTrunk =>
        { destTrunk := some destTrunk
          isNeedForceTermTarifficationSkip := true
          isPhase2 := true }
  else
    { destRegion := serviceTrunk.serverId
      isPhase1 := true
      isNeedForceTermAuthByNumber := true }

theorem bind_phaseOfNumB :
    state.serviceNumberNumB.bind (phaseOfNumB r state now) =
      (collector r now state.serviceNumberNumB).map (phaseTo r state) := by
  rcases state.serviceNumberNumB with _ | numB
  · rfl
  · rfl

variable (now) in
theorem phaseCalc_of_collector {srcTrunk : Trunk} {serviceTrunk : ServiceTrunk}
    (hsrc : state.srcTrunk = some srcTrunk)
    (hcollector : collector r now state.serviceNumberNumB = some serviceTrunk) :
    phaseCalc r state now = phaseTo r state serviceTrunk := by
  unfold phaseCalc
  rw [hsrc]
  dsimp only
  rw [bind_phaseOfNumB, hcollector]
  rfl

theorem phaseTo_away {serviceTrunk : ServiceTrunk}
    (h : state.simblingRegions.contains serviceTrunk.serverId = false) :
    phaseTo r state serviceTrunk =
      { destRegion := serviceTrunk.serverId
        isPhase1 := true
        isNeedForceTermAuthByNumber := true } := by
  unfold phaseTo
  rw [h]
  rfl

theorem phaseTo_isPhase1 {serviceTrunk : ServiceTrunk} :
    (phaseTo r state serviceTrunk).isPhase1 = true ↔
      state.simblingRegions.contains serviceTrunk.serverId = false := by
  unfold phaseTo
  split
  case isTrue hcontains =>
    rcases r.data.trunk serviceTrunk.trunkId with _ | destTrunk
    · exact iff_of_false (by simp) (by rw [hcontains]; decide)
    · exact iff_of_false (by simp) (by rw [hcontains]; decide)
  case isFalse hcontains => exact iff_of_true rfl ((Bool.not_eq_true _).mp hcontains)

/-- A number at home here does not send its call away. -/
theorem phaseOfNumA_isPhase1 {srcTrunk : Trunk} {numA : ServiceNumber}
    (hhome : state.simblingRegions.contains numA.serverId = true) :
    ∀ (serviceTrunks : List ServiceTrunk) (phase : Phase),
      (phaseOfNumA r state now srcTrunk numA serviceTrunks phase).isPhase1 = phase.isPhase1
  | [], _ => rfl
  | serviceTrunk :: serviceTrunks, phase => by
      unfold phaseOfNumA
      split
      · dsimp only
        rw [hhome, Bool.not_true, Bool.false_and, if_neg (by simp)]
        exact phaseOfNumA_isPhase1 hhome serviceTrunks _
      · exact phaseOfNumA_isPhase1 hhome serviceTrunks phase

/-- Where the second loop sends a call it sends it to the region of number A. -/
theorem phaseOfNumA_destRegion {srcTrunk : Trunk} {numA : ServiceNumber} :
    ∀ (serviceTrunks : List ServiceTrunk) (phase : Phase), phase.isPhase1 = false →
      (phaseOfNumA r state now srcTrunk numA serviceTrunks phase).isPhase1 = true →
        (phaseOfNumA r state now srcTrunk numA serviceTrunks phase).destRegion = numA.serverId
  | [], phase, hphase, hphase1 => by
      rw [phaseOfNumA, hphase] at hphase1
      cases hphase1
  | serviceTrunk :: serviceTrunks, phase, hphase, hphase1 => by
      unfold phaseOfNumA at hphase1 ⊢
      split
      case isTrue hforce =>
        rw [if_pos hforce] at hphase1
        dsimp only at hphase1 ⊢
        split
        case isTrue => rfl
        case isFalse haway =>
          rw [if_neg haway] at hphase1
          exact phaseOfNumA_destRegion serviceTrunks _ hphase hphase1
      case isFalse hforce =>
        rw [if_neg hforce] at hphase1
        exact phaseOfNumA_destRegion serviceTrunks phase hphase hphase1

/-- Phase 1 leads to the region of the collecting trunk, or without one to that of number A. -/
theorem phase1_cases (h : (phaseCalc r state now).isPhase1 = true) :
    (∃ serviceTrunk, collector r now state.serviceNumberNumB = some serviceTrunk ∧
      (phaseCalc r state now).destRegion = serviceTrunk.serverId) ∨
    (collector r now state.serviceNumberNumB = none ∧
      ∃ numA, state.serviceNumberNumA = some numA ∧
        (phaseCalc r state now).destRegion = numA.serverId) := by
  rcases hsrc : state.srcTrunk with _ | srcTrunk
  · unfold phaseCalc at h
    rw [hsrc] at h
    cases h
  rcases hcollector : collector r now state.serviceNumberNumB with _ | serviceTrunk
  · refine Or.inr ⟨rfl, ?_⟩
    have hnone : state.serviceNumberNumB.bind (phaseOfNumB r state now) = none := by
      rw [bind_phaseOfNumB, hcollector]
      rfl
    unfold phaseCalc at h ⊢
    rw [hsrc] at h ⊢
    dsimp only at h ⊢
    rw [hnone] at h ⊢
    dsimp only at h ⊢
    rcases hnumA : state.serviceNumberNumA with _ | numA
    · rw [hnumA] at h
      cases h
    · rw [hnumA] at h
      exact ⟨numA, rfl, phaseOfNumA_destRegion _ _ rfl h⟩
  · refine Or.inl ⟨serviceTrunk, rfl, ?_⟩
    rw [phaseCalc_of_collector now hsrc hcollector] at h ⊢
    rw [phaseTo_away (phaseTo_isPhase1.mp h)]

/-- A region that the collecting trunk, or without one number A, belongs to sends no call
away. -/
theorem not_phase1 (hcollector : ∀ serviceTrunk,
      collector r now state.serviceNumberNumB = some serviceTrunk →
        state.simblingRegions.contains serviceTrunk.serverId = true)
    (hnumA : collector r now state.serviceNumberNumB = none →
      ∀ numA, state.serviceNumberNumA = some numA →
        state.simblingRegions.contains numA.serverId = true) :
    (phaseCalc r state now).isPhase1 = false := by
  rcases hsrc : state.srcTrunk with _ | srcTrunk
  · unfold phaseCalc
    rw [hsrc]
  rcases hfound : collector r now state.serviceNumberNumB with _ | serviceTrunk
  · have hnone : state.serviceNumberNumB.bind (phaseOfNumB r state now) = none := by
      rw [bind_phaseOfNumB, hfound]
      rfl
    unfold phaseCalc
    rw [hsrc]
    dsimp only
    rw [hnone]
    dsimp only
    rcases hA : state.serviceNumberNumA with _ | numA
    · rfl
    · exact phaseOfNumA_isPhase1 (hnumA hfound numA hA) _ _
  · rw [phaseCalc_of_collector now hsrc hfound, Bool.eq_false_iff, Ne, phaseTo_isPhase1,
      hcollector serviceTrunk hfound]
    simp

end MegaTrunk

/-! ## The regions together -/

/-- The nodes of all regions.  Servers, numbers and trunk services are the same everywhere, and
the regions of numbers and trunk services are among the servers. -/
structure Network where
  env : Int → AuthEnv
  now : Int
  server : List ServerRow
  serviceNumber : Int → Int → Option ServiceNumber
  serviceTrunkByClientId : Int → List ServiceTrunk
  not_apiHost : ∀ region, (env region).isApiHostMode = false
  instanceId : ∀ region, (env region).conf.instanceId = region
  same_now : ∀ region, (env region).now = now
  same_server : ∀ region,
    (env region).data.simblingRegion = ServerList.getSimblingRegion server
  same_number : ∀ region, (env region).data.serviceNumber = serviceNumber
  same_trunks : ∀ region, (env region).data.serviceTrunkByClientId = serviceTrunkByClientId
  sorted : server.Pairwise fun a b => a.id ≤ b.id
  number_mem : ∀ number time found, serviceNumber number time = some found →
    found.serverId ∈ server.map fun row => row.id
  trunk_mem : ∀ clientId, ∀ serviceTrunk ∈ serviceTrunkByClientId clientId,
    serviceTrunk.serverId ∈ server.map fun row => row.id

namespace Network

open MegaTrunk

variable (net : Network)

/-- The request of a region for a call that comes in through a trunk. -/
def requestThrough (call : RadiusAuthRequest) (trunkName : List Char) : RadiusAuthRequest :=
  { call with trunkName := trunkName, region := 0 }

def prepared (call : RadiusAuthRequest) (aNumber : List Char) (region : Int)
    (trunkName : List Char) : Prepared :=
  (net.env region).preparedOf (requestThrough call trunkName) aNumber

/-- The phase that a region finds out. -/
def phase (call : RadiusAuthRequest) (aNumber : List Char) (region : Int)
    (trunkName : List Char) : Phase :=
  phaseCalc (net.env region).repository (net.prepared call aNumber region trunkName)
    (net.env region).now

/-- The next region of a call that came in through a trunk.  The call has the same number A in
all regions, and these decide on the same tables at the same time. -/
def transfer (call : RadiusAuthRequest) (aNumber : List Char) (region : Int)
    (trunkName : List Char) : Option Int :=
  let phase := net.phase call aNumber region trunkName
  if phase.isPhase1 then some phase.destRegion else none

/-- The trunk service that collects the calls to number B of a call. -/
def collectorOf (call : RadiusAuthRequest) : Option ServiceTrunk :=
  (net.serviceNumber (atoll (if call.dstNumber.isEmpty then call.dstNumber.take 32
    else call.dstNumber)) net.now).bind fun numB =>
      (net.serviceTrunkByClientId numB.clientAccountId).find? fun serviceTrunk =>
        serviceTrunk.isInForce net.now && terminates numB serviceTrunk

variable {net} {call : RadiusAuthRequest} {aNumber : List Char} {region : Int}
  {trunkName : List Char}

theorem simblingRegions_prepared :
    (net.prepared call aNumber region trunkName).simblingRegions =
      ServerList.getSimblingRegion net.server region := by
  unfold prepared AuthEnv.preparedOf AuthEnv.repository AuthEnv.origRegionOf AuthEnv.regionOf
  dsimp only
  rw [net.same_server, net.not_apiHost, net.instanceId]
  rfl

theorem collector_eq :
    collector (net.env region).repository (net.env region).now
      (net.prepared call aNumber region trunkName).serviceNumberNumB = net.collectorOf call := by
  unfold collector collectorOf prepared AuthEnv.preparedOf AuthEnv.repository
    Repository.getServiceNumber
  dsimp only
  rw [net.same_number, net.same_trunks, net.same_now]
  rfl

/-- A region knows number A as every other region does. -/
theorem serviceNumberNumA_eq (region' : Int) (trunkName' : List Char) :
    (net.prepared call aNumber region trunkName).serviceNumberNumA =
      (net.prepared call aNumber region' trunkName').serviceNumberNumA := by
  unfold prepared AuthEnv.preparedOf AuthEnv.repository Repository.getServiceNumber
  dsimp only
  rw [net.same_number, net.same_number, net.same_now, net.same_now]
  rfl

theorem contains_self {id : Int} (hmem : id ∈ net.server.map fun row => row.id) :
    (net.prepared call aNumber id trunkName).simblingRegions.contains id = true := by
  rw [simblingRegions_prepared, List.contains_iff_mem]
  exact mem_getSimblingRegion_self net.sorted hmem

theorem collectorOf_mem {serviceTrunk : ServiceTrunk}
    (h : net.collectorOf call = some serviceTrunk) :
    serviceTrunk.serverId ∈ net.server.map fun row => row.id := by
  obtain ⟨numB, -, hfind⟩ := Option.bind_eq_some_iff.mp h
  exact net.trunk_mem _ _ (List.mem_of_find?_eq_some hfind)

/-- Where a call is transferred to it stays. -/
theorem transfer_transfer {region' : Int}
    (h : net.transfer call aNumber region trunkName = some region') (trunkName' : List Char) :
    net.transfer call aNumber region' trunkName' = none := by
  unfold transfer at h ⊢
  dsimp only at h ⊢
  split at h
  case isFalse => cases h
  case isTrue hphase1 =>
    cases h
    suffices hnot : (net.phase call aNumber (net.phase call aNumber region trunkName).destRegion
        trunkName').isPhase1 = false by rw [hnot]; rfl
    rcases phase1_cases hphase1 with ⟨serviceTrunk, hcollector, hdest⟩ | ⟨hnone, numA, hA, hdest⟩
    · -- the collecting trunk is in the new region
      change (net.phase call aNumber region trunkName).destRegion = _ at hdest
      rw [collector_eq] at hcollector
      rw [hdest]
      refine not_phase1 (fun serviceTrunk' h' => ?_) fun hnone => ?_
      · rw [collector_eq, hcollector] at h'
        cases h'
        exact contains_self (collectorOf_mem hcollector)
      · rw [collector_eq, hcollector] at hnone
        cases hnone
    · -- number A is at home in the new region
      change (net.phase call aNumber region trunkName).destRegion = _ at hdest
      rw [collector_eq] at hnone
      rw [hdest]
      refine not_phase1 (fun serviceTrunk' h' => ?_) fun _ numA' hA' => ?_
      · rw [collector_eq, hnone] at h'
        cases h'
      · rw [serviceNumberNumA_eq region trunkName, hA] at hA'
        cases hA'
        refine contains_self ?_
        unfold prepared AuthEnv.preparedOf AuthEnv.repository Repository.getServiceNumber at hA
        dsimp only at hA
        rw [net.same_number] at hA
        exact net.number_mem _ _ _ hA

/-- However the regions are connected, and through whatever trunks a call comes in, it is
transferred once at most, if its number A, the tables and the time are the same on its way. -/
theorem transfers_le_one (net : Network) (call : RadiusAuthRequest) (aNumber : List Char)
    (region region' : Int) (trunkNames : List (List Char))
    (h : run (net.transfer call aNumber) region trunkNames = some region') :
    trunkNames.length ≤ 1 := by
  rcases trunkNames with _ | ⟨trunkName, _ | ⟨trunkName', rest⟩⟩
  · exact Nat.zero_le _
  · exact le_refl _
  · obtain ⟨next, hfirst, hrest⟩ := run_cons_eq_some h
    obtain ⟨next', hsecond, -⟩ := run_cons_eq_some hrest
    rw [transfer_transfer hfirst] at hsecond
    cases hsecond

/-- The trunk a call comes in through is known. -/
def Knows (net : Network) (region : Int) (trunkName : List Char) : Prop :=
  ((net.env region).repository.getTrunkByName (trunkName.take 32) region).isSome = true

variable (call aNumber) in
theorem srcTrunk_of_knows (h : net.Knows region trunkName) :
    ∃ srcTrunk, (net.prepared call aNumber region trunkName).srcTrunk = some srcTrunk := by
  obtain ⟨srcTrunk, htrunk⟩ := Option.isSome_iff_exists.mp h
  refine ⟨srcTrunk, ?_⟩
  unfold prepared AuthEnv.preparedOf AuthEnv.origRegionOf AuthEnv.regionOf
  dsimp only
  rw [net.not_apiHost, net.instanceId]
  exact htrunk

/-- In the region of the collecting trunk a call is in phase 2 and goes to that trunk. -/
theorem phase_of_contains {serviceTrunk : ServiceTrunk} {destTrunk : Trunk}
    (hknows : net.Knows region trunkName) (hcollector : net.collectorOf call = some serviceTrunk)
    (hcontains : serviceTrunk.serverId ∈ ServerList.getSimblingRegion net.server region)
    (htrunk : (net.env region).data.trunk serviceTrunk.trunkId = some destTrunk) :
    (net.phase call aNumber region trunkName).isPhase2 = true ∧
      (net.phase call aNumber region trunkName).destTrunk = some destTrunk := by
  obtain ⟨srcTrunk, hsrc⟩ := srcTrunk_of_knows call aNumber hknows
  have hphase := phaseCalc_of_collector (r := (net.env region).repository)
    (net.env region).now hsrc (by rw [collector_eq]; exact hcollector)
  have htrunk' : (net.env region).repository.data.trunk serviceTrunk.trunkId = some destTrunk :=
    htrunk
  unfold phase
  rw [hphase, phaseTo, simblingRegions_prepared, List.contains_iff_mem.mpr hcontains, htrunk']
  exact ⟨rfl, rfl⟩

/-- A call to a number whose account has a trunk service in force that terminates calls is in
phase 2, to the trunk of the first such service, in the region it comes in or in the one it is
transferred to. -/
theorem collects (net : Network) (call : RadiusAuthRequest) (aNumber : List Char)
    (serviceTrunk : ServiceTrunk) (hcollector : net.collectorOf call = some serviceTrunk)
    (destTrunk : Trunk)
    (htrunk : ∀ region, serviceTrunk.serverId ∈ ServerList.getSimblingRegion net.server region →
      (net.env region).data.trunk serviceTrunk.trunkId = some destTrunk)
    (region : Int) (trunkName : List Char) (hknows : net.Knows region trunkName) :
    ((net.phase call aNumber region trunkName).isPhase2 = true ∧
      (net.phase call aNumber region trunkName).destTrunk = some destTrunk) ∨
    net.transfer call aNumber region trunkName = some serviceTrunk.serverId ∧
      ∀ trunkName', net.Knows serviceTrunk.serverId trunkName' →
        (net.phase call aNumber serviceTrunk.serverId trunkName').isPhase2 = true ∧
          (net.phase call aNumber serviceTrunk.serverId trunkName').destTrunk =
            some destTrunk := by
  have hself := mem_getSimblingRegion_self net.sorted (collectorOf_mem hcollector)
  by_cases hcontains : serviceTrunk.serverId ∈ ServerList.getSimblingRegion net.server region
  · exact Or.inl (phase_of_contains hknows hcollector hcontains (htrunk region hcontains))
  · refine Or.inr ⟨?_, fun trunkName' hknows' =>
      phase_of_contains hknows' hcollector hself (htrunk _ hself)⟩
    obtain ⟨srcTrunk, hsrc⟩ := srcTrunk_of_knows call aNumber hknows
    have hphase := phaseCalc_of_collector (r := (net.env region).repository)
      (net.env region).now hsrc (by rw [collector_eq]; exact hcollector)
    have haway : (net.prepared call aNumber region trunkName).simblingRegions.contains
        serviceTrunk.serverId = false := by
      rw [simblingRegions_prepared, Bool.eq_false_iff, Ne, List.contains_iff_mem]
      exact hcontains
    unfold transfer phase
    rw [hphase, phaseTo_away haway]
    rfl

/-- Number 100 of region 1 belongs to an account with a trunk in region 2. -/
def twoRegions : Network where
  env region :=
    { conf := { instanceId := region }
      data :=
        { simblingRegion := ServerList.getSimblingRegion [{ id := 1 }, { id := 2 }]
          serviceNumber := fun number _ =>
            if number = 100 then some { id := 9, serverId := 1, clientAccountId := 7 } else none
          serviceTrunkByClientId := fun clientId =>
            if clientId = 7 then
              [{ id := 3, serverId := 2, clientAccountId := 7, trunkId := 5, expireDt := 1,
                 termEnabled := true }]
            else []
          trunk := fun _ => some { id := 5, serverId := 2 }
          trunkByName := fun _ _ => some { id := 1 } } }
  now := 0
  server := [{ id := 1 }, { id := 2 }]
  serviceNumber number _ :=
    if number = 100 then some { id := 9, serverId := 1, clientAccountId := 7 } else none
  serviceTrunkByClientId clientId :=
    if clientId = 7 then
      [{ id := 3, serverId := 2, clientAccountId := 7, trunkId := 5, expireDt := 1,
         termEnabled := true }]
    else []
  not_apiHost _ := rfl
  instanceId _ := rfl
  same_now _ := rfl
  same_server _ := rfl
  same_number _ := rfl
  same_trunks _ := rfl
  sorted := by decide
  number_mem number time found hfound := by
    split at hfound
    · cases hfound
      decide
    · cases hfound
  trunk_mem clientId serviceTrunk hmem := by
    split at hmem
    · rw [List.mem_singleton.mp hmem]
      decide
    · cases hmem

theorem transfers_le_one_twoRegions :
    run (twoRegions.transfer { dstNumber := ['1', '0', '0'] } []) 1 [['a']] = some 2 ∧
      [['a']].length ≤ 1 := by
  have hrun : run (twoRegions.transfer { dstNumber := ['1', '0', '0'] } []) 1 [['a']] = some 2 := by
    decide +kernel
  exact ⟨hrun, transfers_le_one twoRegions _ _ _ _ _ hrun⟩

theorem collects_twoRegions :
    twoRegions.transfer { dstNumber := ['1', '0', '0'] } [] 1 ['a'] = some 2 ∧
      (twoRegions.phase { dstNumber := ['1', '0', '0'] } [] 2 ['b']).isPhase2 = true := by
  have htransfer :
      twoRegions.transfer { dstNumber := ['1', '0', '0'] } [] 1 ['a'] = some 2 := by decide +kernel
  refine ⟨htransfer, ?_⟩
  have hcollected := collects twoRegions { dstNumber := ['1', '0', '0'] } []
    { id := 3, serverId := 2, clientAccountId := 7, trunkId := 5, expireDt := 1,
      termEnabled := true } (by decide +kernel) { id := 5, serverId := 2 } (fun _ _ => rfl) 1 ['a']
    rfl
  rcases hcollected with ⟨hphase2, -⟩ | ⟨-, hphase⟩
  · have hnot : (twoRegions.phase { dstNumber := ['1', '0', '0'] } [] 1 ['a']).isPhase2 = false := by
      decide +kernel
    rw [hnot] at hphase2
    cases hphase2
  · exact (hphase ['b'] rfl).1

end Network
end VoipBill
