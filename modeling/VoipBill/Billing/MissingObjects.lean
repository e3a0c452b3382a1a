import VoipBill.Billing.TrunkOrders

/-!
# Objects that are not found

Every lookup of pricing may come back empty.  A step that needs an object either
throws a `CalcException` when it is missing or relies on an earlier step to have
found it.  This file follows what is known along the four charging paths.

By number every object is found before it is used.  By trunk a leg is charged
under an order that carries all it needs, but for one thing: the NNP package of a
version 5 order may be missing, and `calcByTrunk` uses it unchecked.
`calc_returns_iff` says that this is the only use of a missing object.
-/

namespace VoipBill

open Lib Lib.Hoare

namespace BillingCall

section Basic

variable {α β : Type} {P : PricingState → Prop} {S : β → PricingState → Prop}
  {g : α → Pricing β}

theorem avoids_getCallInfo {g : CallInfo → Pricing β}
    (hg : ∀ callInfo, Avoids .nullPointer (fun s => P s ∧ s.callInfo = callInfo) (g callInfo) S) :
    Avoids .nullPointer P (getCallInfo >>= g) S :=
  fun s hs => hg s.callInfo s ⟨hs, rfl⟩

theorem avoids_getCall {g : Call → Pricing β}
    (hg : ∀ call, Avoids .nullPointer P (g call) S) :
    Avoids .nullPointer P (getCall >>= g) S :=
  fun s hs => hg s.callInfo.call s hs

theorem avoids_getNNPNumberRange {env : PricingEnv} {num : Int}
    {g : Option NNPNumberRange → Pricing β} (hg : ∀ range, Avoids .nullPointer P (g range) S) :
    Avoids .nullPointer P (getNNPNumberRange env num >>= g) S :=
  fun s hs => hg _ s hs

/-- A pointer that is used must be known not to be null. -/
theorem avoids_deref {o : Option α} (ho : ∀ s, P s → o.isSome = true)
    (hg : ∀ a, o = some a → Avoids .nullPointer P (g a) S) :
    Avoids .nullPointer P (deref o >>= g) S := by
  cases o with
  | none => exact fun s hs => absurd (ho s hs) (by simp)
  | some a => exact hg a rfl

theorem avoids_orThrow {message : String} {o : Option α}
    (hg : ∀ a, o = some a → Avoids .nullPointer P (g a) S) :
    Avoids .nullPointer P (orThrow message o >>= g) S := by
  cases o with
  | none =>
      intro s _
      refine ⟨fun heq => absurd (Except.error.inj heq) (by simp), fun b s' heq => ?_⟩
      exact absurd (congrArg Prod.fst heq) (by simp [exec_bind])
  | some a => exact hg a rfl

theorem avoids_modifyCallInfo {Q : Unit → PricingState → Prop} {f : CallInfo → CallInfo}
    (h : ∀ s, P s → Q () { s with callInfo := f s.callInfo }) :
    Avoids .nullPointer P (modifyCallInfo f) Q :=
  avoids_modify h

theorem avoids_modifyCall {Q : Unit → PricingState → Prop} {f : Call → Call}
    (h : ∀ s, P s →
      Q () { s with callInfo := { s.callInfo with call := f s.callInfo.call } }) :
    Avoids .nullPointer P (modifyCall f) Q :=
  avoids_modify h

theorem avoids_onlyIf {condition : Bool} {x : Pricing Unit} {Q : Unit → PricingState → Prop}
    (hx : condition = true → Avoids .nullPointer P x Q)
    (hQ : condition = false → ∀ s, P s → Q () s) :
    Avoids .nullPointer P (onlyIf condition x) Q := by
  cases condition with
  | false => exact avoids_pure fun s hs => hQ rfl s hs
  | true => exact hx rfl

theorem avoids_whenSome {o : Option α} {x : α → Pricing Unit} {Q : Unit → PricingState → Prop}
    (hx : ∀ a, o = some a → Avoids .nullPointer P (x a) Q)
    (hQ : o = none → ∀ s, P s → Q () s) : Avoids .nullPointer P (whenSome o x) Q := by
  cases o with
  | none => exact avoids_pure fun s hs => hQ rfl s hs
  | some a => exact hx a rfl

end Basic

/-! ## By number -/

/-- The services of a leg by number are known. -/
structure NumberKnown (s : PricingState) : Prop where
  serviceNumber : s.callInfo.serviceNumber.isSome = true
  account : s.callInfo.account.isSome = true

/-- So are its tariffs. -/
structure TariffKnown (s : PricingState) : Prop extends NumberKnown s where
  logTariff : s.callInfo.logTariff.isSome = true
  mainTariff : s.callInfo.mainTariff.isSome = true

variable {env : PricingEnv}

theorem avoids_setupLogTariff :
    Avoids .nullPointer NumberKnown (setupLogTariff env)
      fun _ s => NumberKnown s ∧ s.callInfo.logTariff.isSome = true := by
  unfold setupLogTariff
  refine avoids_getCallInfo fun callInfo => ?_
  refine avoids_deref (fun s hs => hs.2 ▸ hs.1.serviceNumber) fun serviceNumber _ => ?_
  refine avoids_bind (R := fun _ s => NumberKnown s ∧
    s.callInfo.logTariff = env.repository.getTariffLog serviceNumber.id)
    (avoids_modifyCallInfo fun s hs => ⟨{ hs.1 with }, rfl⟩) fun _ => ?_
  refine avoids_orThrow fun logTariff hfound => avoids_pure fun s hs => ⟨hs.1, ?_⟩
  rw [hs.2, hfound]
  rfl

theorem avoids_setupMainTariff :
    Avoids .nullPointer (fun s => NumberKnown s ∧ s.callInfo.logTariff.isSome = true)
      (setupMainTariff env) fun _ => TariffKnown := by
  unfold setupMainTariff
  refine avoids_getCallInfo fun callInfo => ?_
  refine avoids_deref (fun s hs => hs.2 ▸ hs.1.2) fun logTariff _ => ?_
  refine avoids_bind (R := fun _ s => (NumberKnown s ∧ s.callInfo.logTariff.isSome = true) ∧
    s.callInfo.mainTariff = env.repository.data.tariff logTariff.tariffIdLocal)
    (avoids_modifyCallInfo fun s hs => ⟨⟨{ hs.1.1 with }, hs.1.2⟩, rfl⟩) fun _ => ?_
  refine avoids_orThrow fun mainTariff hfound => avoids_pure fun s hs => ?_
  refine { hs.1.1 with logTariff := hs.1.2, mainTariff := ?_ }
  rw [hs.2, hfound]
  rfl

theorem avoids_setupBilledTime :
    Avoids .nullPointer TariffKnown (setupBilledTime env) fun _ => TariffKnown := by
  unfold setupBilledTime
  refine avoids_getCallInfo fun callInfo => ?_
  split
  case isTrue =>
    refine avoids_deref (fun s hs => hs.2 ▸ hs.1.mainTariff) fun mainTariff _ => ?_
    exact avoids_modifyCall fun s hs => { hs.1 with }
  case isFalse hnone =>
    intro s hs
    rw [← hs.2] at hnone
    exact absurd hs.1.serviceNumber hnone

/-- The price list is known once it is set up. -/
theorem avoids_setupPricelist (pricelistId : Int) :
    Avoids .nullPointer TariffKnown (setupPricelist env pricelistId)
      fun _ s => TariffKnown s ∧ s.callInfo.pricelist.isSome = true := by
  unfold setupPricelist
  refine avoids_bind (R := fun _ => TariffKnown) (avoids_onlyIf (fun _ =>
    avoids_modifyCallInfo fun s hs => { hs with }) fun _ s hs => hs) fun _ => ?_
  refine avoids_getCallInfo fun callInfo => avoids_orThrow fun pricelist hfound => ?_
  refine avoids_modifyCall fun s hs => ⟨{ hs.1 with }, ?_⟩
  show s.callInfo.pricelist.isSome = true
  rw [hs.2, hfound]
  rfl

theorem avoids_setupPrice (number : Int) :
    Avoids .nullPointer (fun s => TariffKnown s ∧ s.callInfo.pricelist.isSome = true)
      (setupPrice env number) fun _ => TariffKnown := by
  unfold setupPrice
  refine avoids_bind (R := fun _ => TariffKnown) (avoids_onlyIf (fun _ => ?_)
    fun _ s hs => hs.1) fun _ => ?_
  · refine avoids_getCallInfo fun callInfo => ?_
    refine avoids_deref (fun s hs => hs.2 ▸ hs.1.2) fun pricelist _ => ?_
    exact avoids_modifyCallInfo fun s hs => { hs.1.1 with }
  · refine avoids_getCallInfo fun callInfo => avoids_orThrow fun price _ => ?_
    exact avoids_modifyCall fun s hs => { hs.1 with }

theorem avoids_setupTariffPrice :
    Avoids .nullPointer TariffKnown (setupTariffPrice env) fun _ => TariffKnown := by
  unfold setupTariffPrice
  refine avoids_bind (R := fun _ s => TariffKnown s ∧ s.callInfo.tariff.isSome = true)
    ?_ fun _ => ?_
  · unfold setupTariff
    refine avoids_getCallInfo fun callInfo => ?_
    refine avoids_deref (fun s hs => hs.2 ▸ hs.1.logTariff) fun logTariff _ => ?_
    refine avoids_bind (R := fun _ s => TariffKnown s ∧
      s.callInfo.tariff = env.repository.data.tariff (tariffIdOf logTariff callInfo.call))
      (avoids_modifyCallInfo fun s hs => ⟨{ hs.1 with }, rfl⟩) fun _ => ?_
    refine avoids_orThrow fun tariff hfound => avoids_pure fun s hs => ⟨hs.1, ?_⟩
    rw [hs.2, hfound]
    rfl
  · refine avoids_getCallInfo fun callInfo => ?_
    refine avoids_deref (fun s hs => hs.2 ▸ hs.1.2) fun tariff _ => ?_
    refine avoids_bind ((avoids_setupPricelist tariff.pricelistId).pre fun s hs => hs.1.1)
      fun _ => ?_
    exact avoids_getCall fun call => avoids_setupPrice call.dstNumber

theorem avoids_setupFoundPrice :
    Avoids .nullPointer TariffKnown (setupFoundPrice env) fun _ => TariffKnown :=
  avoids_bind (avoids_setupPricelist 0) fun _ => avoids_setupPrice 0

theorem avoids_setupFreemin :
    Avoids .nullPointer TariffKnown setupFreemin fun _ => NumberKnown := by
  unfold setupFreemin
  refine avoids_getCallInfo fun callInfo => ?_
  refine avoids_onlyIf (fun _ => ?_) fun _ s hs => hs.1.toNumberKnown
  refine avoids_deref (fun s hs => hs.2 ▸ hs.1.mainTariff) fun mainTariff _ => ?_
  refine avoids_deref (fun s hs => hs.2 ▸ hs.1.serviceNumber) fun serviceNumber _ => ?_
  refine avoids_onlyIf (fun _ => ?_) fun _ s hs => hs.1.toNumberKnown
  refine avoids_get fun s₀ => ?_
  refine avoids_bind (R := fun _ => NumberKnown)
    (avoids_modify fun s hs => { hs.1.toNumberKnown with }) fun _ => ?_
  refine avoids_onlyIf (fun _ => ?_) fun _ s hs => hs
  exact avoids_modifyCall fun s hs => { hs with }

theorem avoids_setupPackagePrepaid {P : PricingState → Prop}
    (hP : ∀ s, P s → s.callInfo.account.isSome = true) :
    Avoids .nullPointer P (setupPackagePrepaid env) fun _ _ => True := by
  unfold setupPackagePrepaid
  refine avoids_getCallInfo fun callInfo => ?_
  refine avoids_onlyIf (fun _ => ?_) fun _ _ _ => trivial
  refine avoids_deref (fun s hs => hs.2 ▸ hP s hs.1) fun account _ => avoids_get fun s₀ => ?_
  refine avoids_bind (R := fun _ _ => True) (avoids_modify fun _ _ => trivial) fun _ => ?_
  exact avoids_whenSome (fun _ _ => avoids_modifyCallInfo fun _ _ => trivial) fun _ _ _ => trivial

theorem avoids_setupPackagePricelist :
    Avoids .nullPointer TariffKnown (setupPackagePricelist env) fun _ => TariffKnown := by
  refine avoids_modifyCallInfo fun s hs => ?_
  have hkept := applyPackagePrice_keeps env
    (f := fun callInfo => (callInfo.serviceNumber, callInfo.account, callInfo.logTariff,
      callInfo.mainTariff)) (fun _ _ _ _ => rfl) (packagesOf env s.callInfo) s.callInfo
  simp only [Prod.mk.injEq] at hkept
  obtain ⟨hnumber, haccount, hlog, hmain⟩ := hkept
  exact ⟨⟨hnumber ▸ hs.serviceNumber, haccount ▸ hs.account⟩, hlog ▸ hs.logTariff,
    hmain ▸ hs.mainTariff⟩

/-- Version 4 by number. -/
theorem avoids_calcOrigByNumberV4 :
    Avoids .nullPointer NumberKnown (calcOrigByNumberV4 env) fun _ _ => True := by
  unfold calcOrigByNumberV4
  refine avoids_bind avoids_setupLogTariff fun _ => ?_
  refine avoids_bind avoids_setupMainTariff fun _ => ?_
  refine avoids_bind avoids_setupBilledTime fun _ => ?_
  refine avoids_bind avoids_setupPackagePricelist fun _ => ?_
  refine avoids_getCallInfo fun callInfo => Avoids.pre (P := TariffKnown) ?_ fun s hs => hs.1
  refine avoids_bind (R := fun _ => TariffKnown) ?_ fun _ => ?_
  · unfold setupOrigPrice
    split
    · exact avoids_setupTariffPrice
    · exact avoids_setupFoundPrice
  · refine avoids_bind avoids_setupFreemin fun _ => ?_
    refine avoids_bind (avoids_setupPackagePrepaid fun s hs => hs.account) fun _ => ?_
    exact avoids_modifyCall fun _ _ => trivial

/-- A terminating leg by number. -/
theorem avoids_calcTermByNumber :
    Avoids .nullPointer NumberKnown (calcTermByNumber env) fun _ _ => True := by
  unfold calcTermByNumber
  refine avoids_bind avoids_setupLogTariff fun _ => ?_
  refine avoids_bind avoids_setupMainTariff fun _ => ?_
  refine avoids_bind avoids_setupBilledTime fun _ => avoids_getCall fun call => ?_
  refine avoids_onlyIf (fun _ => ?_) fun _ _ _ => trivial
  refine avoids_getCallInfo fun callInfo => ?_
  refine avoids_deref (fun s hs => hs.2 ▸ hs.1.mainTariff) fun mainTariff _ => ?_
  refine avoids_bind ((avoids_setupPricelist mainTariff.pricelistId).pre fun s hs => hs.1)
    fun _ => avoids_getCall fun call => ?_
  refine avoids_bind (avoids_setupPrice call.srcNumber) fun _ => ?_
  refine avoids_bind (R := fun _ _ => True) (avoids_modifyCall fun _ _ => trivial) fun _ => ?_
  exact avoids_modifyCall fun _ _ => trivial

/-! ## Package minutes

The package minutes that are looked at are those of the connected tariffs, so the
connection of each is there, and so is the row of the table it was read from. -/

section Minutes

variable {lights : List NNPAccountTariffLight} {nnpPackageMinute : NNPPackageMinute}

theorem of_mem_packageMinutesOf (h : nnpPackageMinute ∈ packageMinutesOf env lights) :
    (lightOfTariff lights nnpPackageMinute.nnpTariffId).isSome = true ∧
      (env.repository.data.nnpPackageMinute.find nnpPackageMinute.id).isSome = true := by
  obtain ⟨light, hlight, hmem⟩ := List.mem_flatMap.mp h
  obtain ⟨row, hrow, htariff, rfl⟩ := NNPPackageMinuteList.mem_findAllByTariffID hmem
  constructor
  · rw [lightOfTariff, List.find?_isSome]
    exact ⟨light, List.mem_reverse.mpr hlight, by simp [htariff]⟩
  · rw [NNPPackageMinuteList.find_eq_some hrow]
    rfl

theorem avoids_minuteCandidates {nnpDestinationIds : List Int} {minutes : List NNPPackageMinute}
    (h : ∀ nnpPackageMinute ∈ minutes, nnpPackageMinute ∈ packageMinutesOf env lights) :
    Avoids .nullPointer (fun _ => True) (minuteCandidates env lights nnpDestinationIds minutes)
      fun candidates _ => ∀ candidate ∈ candidates,
        candidate.nnpPackageMinute ∈ packageMinutesOf env lights := by
  induction minutes with
  | nil => exact avoids_pure fun _ _ candidate hmem => absurd hmem (by simp)
  | cons nnpPackageMinute rest ih =>
      have hhead := h nnpPackageMinute List.mem_cons_self
      have htail := ih fun minute hmem => h minute (List.mem_cons_of_mem nnpPackageMinute hmem)
      rw [minuteCandidates]
      split
      case isFalse => exact htail
      case isTrue =>
        refine avoids_deref (fun _ _ => (of_mem_packageMinutesOf hhead).1) fun light _ => ?_
        refine avoids_bind (R := fun candidate _ =>
          candidate.nnpPackageMinute = nnpPackageMinute) ?_ fun candidate => ?_
        · unfold minuteCandidate
          refine avoids_get fun s₀ => ?_
          refine avoids_bind (R := fun _ _ => True) (avoids_modify fun _ _ => trivial) fun _ => ?_
          exact avoids_pure fun _ _ => rfl
        · refine avoids_of_fact (fun _ hcandidate => hcandidate) fun hcandidate => ?_
          refine avoids_bind (htail.pre fun _ _ => trivial) fun candidates => ?_
          refine avoids_pure fun s' hcandidates candidate' hmem => ?_
          split at hmem
          · rcases List.mem_cons.mp hmem with rfl | hmem
            · rw [hcandidate]
              exact hhead
            · exact hcandidates candidate' hmem
          · exact hcandidates candidate' hmem

theorem avoids_applyMinute {minute : Option MinuteCandidate}
    (h : ∀ candidate, minute = some candidate →
      candidate.nnpPackageMinute ∈ packageMinutesOf env lights) :
    Avoids .nullPointer (fun _ => True) (applyMinute env lights minute) fun _ _ => True := by
  unfold applyMinute
  split
  case h_1 candidate hsome =>
    have hmem := h candidate (Option.filter_eq_some_iff.mp hsome).1
    unfold applyNNPPackageMinute
    refine avoids_orThrow fun nnpPackage _ => ?_
    refine avoids_bind (R := fun _ _ => True) (avoids_modifyCall fun _ _ => trivial) fun _ => ?_
    refine avoids_getCall fun call => avoids_onlyIf (fun _ => ?_) fun _ _ _ => trivial
    refine avoids_bind (R := fun _ _ => True) (avoids_modifyCall fun _ _ => trivial) fun _ => ?_
    refine avoids_deref (fun _ _ => (of_mem_packageMinutesOf hmem).2) fun row _ => ?_
    refine avoids_whenSome (fun light _ => avoids_get fun s₀ => ?_) fun _ _ _ => trivial
    refine avoids_bind (R := fun _ _ => True) (avoids_modify fun _ _ => trivial) fun _ => ?_
    exact avoids_modifyCall fun _ _ => trivial
  case h_2 =>
    unfold applyNNPPackage
    refine avoids_getCall fun call => avoids_orThrow fun nnpPackage _ => ?_
    exact avoids_modifyCall fun _ _ => trivial

/-- Version 5 by number. -/
theorem avoids_calcOrigNNPByNumber :
    Avoids .nullPointer (fun _ => True) (calcOrigNNPByNumber env) fun _ _ => True := by
  unfold calcOrigNNPByNumber
  refine avoids_getCallInfo fun callInfo => avoids_orThrow fun serviceNumber _ => ?_
  refine Avoids.pre (P := fun _ => True) ?_ fun _ _ => trivial
  dsimp only
  split
  case isTrue => exact avoids_throw (by simp)
  case isFalse =>
    refine avoids_getNNPNumberRange fun range => ?_
    refine avoids_bind (R := fun minute _ => ∀ candidate, minute = some candidate →
      candidate.nnpPackageMinute ∈ packageMinutesOf env
        (env.repository.data.nnpAccountTariffLight.findAllActiveByClientID
          callInfo.call.accountId callInfo.call.connectTime serviceNumber.id)) ?_ fun minute => ?_
    · refine avoids_bind (avoids_minuteCandidates fun _ hmem => hmem) fun candidates => ?_
      exact avoids_pure fun s hs candidate hbegin => hs candidate (mem_of_setBegin hbegin)
    · refine avoids_of_fact (fun _ hminute => hminute) fun hminute => ?_
      refine avoids_bind (R := fun _ _ => True) (avoids_modifyCall fun _ _ => trivial) fun _ => ?_
      refine avoids_bind (R := fun _ _ => True) (avoids_modifyCall fun _ _ => trivial) fun _ => ?_
      refine avoids_bind (avoids_applyMinute hminute) fun _ => ?_
      exact avoids_modifyCall fun _ _ => trivial

end Minutes

/-- Charging a leg by number uses no missing object. -/
theorem avoids_chargeByNumber (fTarifficationSkip : Bool) :
    Avoids .nullPointer (fun s => NumberKnown s ∧ s.callInfo.server.isSome = true)
      (chargeByNumber env fTarifficationSkip) fun _ _ => True := by
  unfold chargeByNumber
  refine avoids_getCallInfo fun callInfo => ?_
  split
  case isFalse => exact avoids_calcTermByNumber.pre fun s hs => hs.1.1
  case isTrue =>
    refine avoids_deref (fun s hs => hs.2 ▸ hs.1.2) fun server _ => ?_
    split
    case isTrue => exact avoids_modifyCall fun _ _ => trivial
    case isFalse =>
      refine avoids_onlyIf (fun _ => ?_) fun _ _ _ => trivial
      unfold calcOrigByNumber
      refine avoids_getCall fun call => ?_
      dsimp only
      split
      case isTrue => exact avoids_calcOrigNNPByNumber.pre fun _ _ => trivial
      case isFalse =>
        split
        case isTrue => exact avoids_calcOrigByNumberV4.pre fun s hs => hs.1.1
        case isFalse => exact avoids_throw (by simp)

/-! ## By trunk -/

/-- A leg under a version 4 order: price list and price are there. -/
structure OrderKnown (s : PricingState) : Prop where
  noNumber : s.callInfo.serviceNumber = none
  account : s.callInfo.account.isSome = true
  pricelist : s.callInfo.pricelist.isSome = true
  price : s.callInfo.price.isSome = true

theorem returns_setupPackagePricelist :
    Triple OrderKnown (setupPackagePricelist env) (fun _ => OrderKnown) fun _ => False := by
  refine triple_modifyCallInfo fun s hs => ?_
  refine List.foldlRecOn (motive := fun callInfo => OrderKnown { s with callInfo := callInfo })
    (packagesOf env s.callInfo) (applyPackagePrice env) hs fun callInfo hinfo package _ => ?_
  unfold applyPackagePrice
  split
  · exact hinfo
  · exact ⟨hinfo.noNumber, hinfo.account, rfl, rfl⟩

theorem returns_setupFoundPrice :
    Triple OrderKnown (setupFoundPrice env) (fun _ => OrderKnown) fun _ => False := by
  intro s hs
  obtain ⟨pricelist, hpricelist⟩ := Option.isSome_iff_exists.mp hs.pricelist
  obtain ⟨price, hprice⟩ := Option.isSome_iff_exists.mp hs.price
  have hexec : exec (setupFoundPrice env) s = (.ok (), { s with callInfo := { s.callInfo with
      call := { s.callInfo.call with
        pricelistId := pricelist.id
        pricePrefix := atoll price.pricePrefix
        rate := price.price } } }) := by
    simp only [setupFoundPrice, setupPricelist, setupPrice, exec_bind, onlyIf, bne_self_eq_false,
      Bool.false_eq_true, if_false, exec_pure, exec_getCallInfo, hpricelist, hprice,
      exec_orThrow_some, exec_modifyCall]
  rw [hexec]
  exact { hs with }

theorem returns_setupBilledTime :
    Triple OrderKnown (setupBilledTime env) (fun _ => OrderKnown) fun _ => False := by
  intro s hs
  obtain ⟨pricelist, hpricelist⟩ := Option.isSome_iff_exists.mp hs.pricelist
  unfold setupBilledTime
  rw [exec_bind_ok (exec_getCallInfo s), hs.noNumber, hpricelist]
  exact { hs with }

theorem returns_setupPackagePrepaid :
    Triple OrderKnown (setupPackagePrepaid env) (fun _ => OrderKnown) fun _ => False := by
  unfold setupPackagePrepaid
  refine triple_getCallInfo fun callInfo => ?_
  refine triple_onlyIf (fun _ => ?_) fun _ s hs => hs.1
  refine triple_of_fact (fun s hs => hs.2 ▸ hs.1.account) fun haccount => ?_
  obtain ⟨account, haccount⟩ := Option.isSome_iff_exists.mp haccount
  rw [haccount]
  refine triple_deref_some (triple_get_bind fun s₀ => ?_)
  refine triple_bind (R := fun _ => OrderKnown) (triple_modify fun s hs => { hs.1.1 with })
    fun _ => ?_
  exact triple_whenSome (fun _ _ => triple_modifyCallInfo fun s hs => { hs with }) fun _ s hs => hs

theorem returns_setupInterconnect :
    Triple OrderKnown setupInterconnect (fun _ => OrderKnown) fun _ => False := by
  unfold setupInterconnect
  refine triple_getCall fun call => triple_onlyIf (fun _ => ?_) fun _ s hs => hs.1
  refine triple_getCallInfo fun callInfo => ?_
  refine triple_of_fact (fun s hs => hs.2 ▸ hs.1.1.pricelist) fun hpricelist => ?_
  obtain ⟨pricelist, hpricelist⟩ := Option.isSome_iff_exists.mp hpricelist
  rw [hpricelist]
  exact triple_deref_some (triple_modifyCall fun s hs => { hs.1.1 with })

/-- Version 4 by trunk returns. -/
theorem returns_calcByTrunkV4 (orig : Bool) :
    Triple OrderKnown (calcByTrunkV4 env orig) (fun _ _ => True) fun _ => False := by
  unfold calcByTrunkV4
  refine triple_bind (triple_onlyIf (fun _ => returns_setupPackagePricelist) fun _ s hs => hs)
    fun _ => ?_
  refine triple_bind returns_setupFoundPrice fun _ => ?_
  refine triple_bind returns_setupBilledTime fun _ => ?_
  refine triple_bind (triple_onlyIf (fun _ => returns_setupPackagePrepaid) fun _ s hs => hs)
    fun _ => ?_
  refine triple_bind returns_setupInterconnect fun _ => ?_
  exact triple_modifyCall fun _ _ => trivial

/-- Version 5 by trunk returns once the package is there. -/
theorem returns_chargeNNP (nnpPackage : NNPPackage) :
    Triple (fun _ => True) (do
      setupBilledTimeNNP env nnpPackage
      setupNNPInterconnect env
      setupNNPCost) (fun _ _ => True) fun _ => False := by
  refine triple_bind (R := fun _ _ => True) (triple_modifyCall fun _ _ => trivial) fun _ => ?_
  refine triple_bind (R := fun _ _ => True) ?_ fun _ => triple_modifyCall fun _ _ => trivial
  unfold setupNNPInterconnect
  refine triple_getCallInfo fun callInfo => triple_onlyIf (fun _ => ?_) fun _ _ _ => trivial
  refine triple_bind (R := fun _ _ => True) ?_ fun _ => ?_
  · refine triple_whenSome (fun _ _ => ?_) fun _ _ _ => trivial
    exact triple_onlyIf (fun _ => triple_modifyCall fun _ _ => trivial) fun _ _ _ => trivial
  · exact triple_whenSome (fun _ _ => triple_modifyCall fun _ _ => trivial) fun _ _ _ => trivial

/-- The order a version 5 leg is settled under lacks its NNP package. -/
def lacksPackage (order : ServiceTrunkOrder) : Bool := isNNPOrder order && order.nnpPackage.isNone

section Trunk

variable {s₀ s : PricingState} {trunk : Trunk} {order : ServiceTrunkOrder} {account : Client}
  {dstNumber : Int}

/-- **How a leg by trunk ends.**  It returns, unless the NNP package of its order is
missing: then the missing package is used. -/
theorem exec_chargeByTrunk (horder : OrderOf env.repository trunk dstNumber order account)
    (h : OfTrunk s₀ order account s) (orig : Bool) :
    (lacksPackage order = true ∧ exec (chargeByTrunk env orig) s = (.error .nullPointer, s)) ∨
    (lacksPackage order = false ∧ ∃ s', exec (chargeByTrunk env orig) s = (.ok (), s')) := by
  have hnnp : isNNPOrder order = decide (account.accountVersion = 5) := by
    rw [isNNPOrder, horder.ofAccount]
    rfl
  unfold chargeByTrunk lacksPackage
  rw [exec_bind_ok (exec_getCallInfo s), h.accountVersion, hnnp]
  cases horder.priced with
  | byPricelist pricelist price version hpricelist hprice _ =>
      refine Or.inr ⟨by simp [version], ?_⟩
      have hknown : OrderKnown s :=
        { noNumber := h.noNumber
          account := by rw [h.ofAccount]; rfl
          pricelist := by rw [h.ofPricelist, hpricelist]; rfl
          price := by rw [h.ofPrice, hprice]; rfl }
      obtain ⟨_, s', hexec, -⟩ := (@returns_calcByTrunkV4 env orig).returns hknown
      rw [if_pos version]
      exact ⟨s', hexec⟩
  | byPackage trunkSettings version priced =>
      rw [if_neg (by omega), if_pos version, (h.ofPackage version).1]
      cases hpackage : order.nnpPackage with
      | none => exact Or.inl ⟨by simp [version], rfl⟩
      | some nnpPackage =>
          refine Or.inr ⟨by simp, ?_⟩
          obtain ⟨_, s', hexec, -⟩ := (@returns_chargeNNP env nnpPackage).returns
            (s := s) trivial
          exact ⟨s', hexec⟩

end Trunk

/-! ## The whole -/

theorem calcLeg_eq_none {s₀ : PricingState} :
    calcLeg env s₀ = none ↔ (exec (tariffication env) s₀).1 = .error .nullPointer := by
  unfold calcLeg
  match exec (tariffication env) s₀ with
  | (.ok _, _) => simp
  | (.error .nullPointer, _) => simp
  | (.error (.calcException _), _) => simp

theorem avoids_setVatFlag :
    Avoids .nullPointer (fun _ => True) (setVatFlag env) fun _ _ => True :=
  avoids_modifyCallInfo fun _ _ => trivial

/-- **The one missing object that is used.**  Pricing a leg returns or stops with an
exception that is caught, unless the leg is settled under an order of a version 5
account whose NNP package is missing. -/
theorem calc_returns_iff (env : BillingEnv) (sys : PricingSys) (leg : Leg) :
    (calcLeg (leg.pricingEnv env) (sys.start leg)).isSome = true ↔
      ∀ trunk order, legPath (leg.pricingEnv env) (sys.start leg) = .byTrunk trunk order →
        lacksPackage order = false := by
  have hpath := @tariffication_path (leg.pricingEnv env) _ (sys.start_unpriced leg)
  rw [Option.isSome_iff_ne_none, ne_eq, calcLeg_eq_none]
  cases hleg : legPath (leg.pricingEnv env) (sys.start leg) with
  | stopped =>
      rw [hleg] at hpath
      obtain ⟨message, s', hexec, -⟩ := hpath
      simp [hexec]
  | byNumber trunk server serviceNumber account =>
      rw [hleg] at hpath
      obtain ⟨s, hof, hexec⟩ := hpath
      have hknown : NumberKnown s ∧ s.callInfo.server.isSome = true :=
        ⟨⟨by rw [hof.ofService]; rfl, by rw [hof.ofAccount]; rfl⟩, by rw [hof.onServer]; rfl⟩
      rw [hexec]
      refine iff_of_true ?_ (by simp)
      exact ((avoids_bind (avoids_chargeByNumber _) fun _ => avoids_setVatFlag) s hknown).1
  | byTrunk trunk order =>
      rw [hleg] at hpath
      obtain ⟨account, s, horder, hof, hexec⟩ := hpath
      rw [hexec]
      rcases exec_chargeByTrunk horder hof (sys.start leg).callInfo.call.orig with
        ⟨hlacks, hnull⟩ | ⟨hhas, s', hreturns⟩
      · rw [exec_bind_error hnull]
        refine iff_of_false (by simp) fun h => ?_
        rw [h trunk order rfl] at hlacks
        exact absurd hlacks (by simp)
      · rw [exec_bind_ok hreturns]
        refine iff_of_true (by simp [setVatFlag]) fun trunk' order' heq => ?_
        obtain ⟨rfl, rfl⟩ := LegPath.byTrunk.inj heq
        exact hhas

end BillingCall

/-! ## A trunk whose tariff has a price and no package -/

/-- A trunk of a version 5 account, settled by a package price. -/
def packagelessTables : DataContainer where
  trunkByName := fun _ _ => some { id := 1, serverId := 1 }
  server := fun _ => some { id := 1 }
  instanceSettings := fun _ => some { id := 1 }
  client := fun _ => some { id := 3, accountVersion := 5 }
  serviceTrunks := fun _ _ => [{ id := 7, clientAccountId := 3, trunkId := 1 }]
  serviceTrunkSettings := fun _ _ => [{ id := 8, trunkId := 7, nnpTariffId := 10 }]
  nnpNumberRange := fun _ => some 1
  nnpNumberRangePrefix := fun _ => [4]
  nnpPrefixDestination := fun _ => [{ nnpDestinationId := 5 }]
  nnpPackagePrice := [{ id := 20, nnpTariffId := 10, nnpDestinationId := 5, price := 1 }]

/-- The package of the price is not there, and its address is used. -/
theorem calc_uses_missing_package :
    ¬ ∀ (env : BillingEnv) (sys : PricingSys) (leg : Leg),
      (BillingCall.calcLeg (leg.pricingEnv env) (sys.start leg)).isSome = true := by
  intro h
  have hnone : (BillingCall.calcLeg
      (Leg.pricingEnv { data := packagelessTables } { cdr := { srcRoute := ['t'] }, orig := true })
      (PricingSys.start { PricingSys.empty with
        numberRanges := (∅ : IntMap NNPNumberRange).insert 1 { id := 1 } }
        { cdr := { srcRoute := ['t'] }, orig := true })).isSome = false := by
    decide +kernel
  rw [h] at hnone
  exact absurd hnone (by simp)

end VoipBill
