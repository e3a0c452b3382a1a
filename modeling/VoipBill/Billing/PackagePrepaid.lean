import VoipBill.Billing.PricingRun
import VoipBill.Billing.UsageBooks

/-!
# Prepaid packages are not overdrawn

Pricing reads what is left of a package and writes the seconds it takes into the
leg; `StatsPackageManager::add` books them later under conditions of its own.
One of these asks for a number service, which a leg by trunk does not have, while
pricing takes seconds from the packages of trunk services too.

`used_seconds_eq_taken` says that without such a leg, and with packages that
grant no negative time, every row counts exactly the seconds taken from it and
never more than were paid for, over whole runs.
-/

namespace VoipBill

open Lib Lib.Hoare

namespace PackagePrepaid

open BillingCall

def packageView : UsageView StatsPackage where
  id := (·.id)
  used := (·.usedSeconds)

/-- The row of a prepaid package that a call takes its seconds from. -/
def packageOf (call : Call) : Option Int :=
  if 1 < call.servicePackageId then some call.servicePackageStatsId else none

/-- The books are right and no package is overdrawn. -/
structure PackageInv (added : List Call) (m : StatsPackageManager) : Prop where
  books : Books packageView packageOf added m
  paid : ∀ (id : Int) (stats : StatsPackage), m.rows[id]? = some stats →
    stats.usedSeconds ≤ stats.paidSeconds

/-! ## What a package grants -/

theorem cround_nonneg {x : ℚ} (h : 0 ≤ x) : 0 ≤ StatsPackageManager.cround x := by
  rw [StatsPackageManager.cround, if_pos h]
  exact Int.floor_nonneg.mpr (by linarith)

/-- A package that is in force at the connect time and has no negative minutes
grants no negative time. -/
theorem createStatsPackage_paid {callInfo : CallInfo} {timezoneOffset : Int}
    {servicePackage : ServicePackage} {tariff : TariffPackage}
    (hfrom : servicePackage.activationDt ≤ callInfo.call.connectTime)
    (hto : callInfo.call.connectTime ≤ servicePackage.expireDt)
    (hminutes : 0 ≤ tariff.prepaidMinutes) (id : Int) :
    0 ≤ (StatsPackageManager.createStatsPackage callInfo timezoneOffset servicePackage tariff
      id).paidSeconds := by
  have hseconds : 0 ≤ tariff.getPrepaidSeconds := by
    rw [TariffPackage.getPrepaidSeconds]
    omega
  have hstart := getTmonth_le callInfo.call.connectTime timezoneOffset
  have hend := le_getTmonthEnd callInfo.call.connectTime timezoneOffset
  unfold StatsPackageManager.createStatsPackage
  split
  case isTrue =>
    refine cround_nonneg (div_nonneg (mul_nonneg ?_ ?_) ?_)
    · rw [Int.cast_nonneg_iff]
      split <;> split <;> omega
    · exact_mod_cast hseconds
    · rw [Int.cast_nonneg_iff]
      omega
  case isFalse => exact hseconds

/-- A package that `getCurrent` may be asked for. -/
structure PackageOk (data : DataContainer) (connectTime : Int)
    (servicePackage : ServicePackage) : Prop where
  activationDt : servicePackage.activationDt ≤ connectTime
  expireDt : connectTime ≤ servicePackage.expireDt
  minutes : ∀ tariff, data.tariffPackage servicePackage.tariffPackageId = some tariff →
    0 ≤ tariff.prepaidMinutes

section Choose

variable {env : PricingEnv} {callInfo : CallInfo} {account : Client} {added : List Call}
  {m : StatsPackageManager}

theorem PackageInv.getCurrent (h : PackageInv added m) (account : Client)
    {servicePackage : ServicePackage} {tariff : TariffPackage}
    (hok : PackageOk env.repository.data callInfo.call.connectTime servicePackage)
    (htariff : env.repository.data.tariffPackage servicePackage.tariffPackageId = some tariff) :
    PackageInv added
      (StatsPackageManager.getCurrent m callInfo account servicePackage tariff).2 := by
  have hcreate : ∀ id,
      packageView.id (StatsPackageManager.createStatsPackage callInfo account.timezoneOffset
        servicePackage tariff id) = id ∧
      packageView.used (StatsPackageManager.createStatsPackage callInfo account.timezoneOffset
        servicePackage tariff id) = 0 := by
    intro id
    unfold StatsPackageManager.createStatsPackage
    split
    · exact ⟨rfl, rfl⟩
    · exact ⟨rfl, rfl⟩
  refine ⟨h.books.getCurrent hcreate, UsageManager.forall_getCurrent h.paid ?_⟩
  refine le_of_eq_of_le (hcreate _).2 ?_
  exact createStatsPackage_paid hok.activationDt hok.expireDt (hok.minutes tariff htariff) _

/-- The seconds chosen are left on the row they are taken from. -/
structure ChoiceOk (m : StatsPackageManager) (choice : PrepaidChoice) : Prop where
  row : m.rows[choice.statsPackage.id]? = some choice.statsPackage
  fits : choice.statsPackage.usedSeconds + choice.packageSeconds ≤ choice.statsPackage.paidSeconds

/-- A lookup leaves what was chosen before as good as it was. -/
theorem ChoiceOk.getCurrent (hinv : PackageInv added m) {choice : PrepaidChoice}
    (h : ChoiceOk m choice) (servicePackage : ServicePackage) (tariff : TariffPackage) :
    ChoiceOk (StatsPackageManager.getCurrent m callInfo account servicePackage tariff).2 choice where
  row := UsageManager.getCurrent_mono hinv.books.ids h.row
  fits := h.fits

theorem prepaidTariff_eq_some {servicePackage : ServicePackage} {tariff : TariffPackage}
    (h : prepaidTariff env callInfo servicePackage = some tariff) :
    env.repository.data.tariffPackage servicePackage.tariffPackageId = some tariff ∧
      tariff.prepaidMinutes ≠ 0 := by
  obtain ⟨hsome, hprepaid⟩ := Option.filter_eq_some_iff.mp h
  simp only [Bool.and_eq_true, bne_iff_ne] at hprepaid
  exact ⟨hsome, hprepaid.1⟩

/-- Seconds up to what is left of a current row are a good choice. -/
theorem choiceOk_of_le {servicePackage : ServicePackage} {tariff : TariffPackage}
    (h : PackageInv added m)
    (hok : PackageOk env.repository.data callInfo.call.connectTime servicePackage)
    (htariff : env.repository.data.tariffPackage servicePackage.tariffPackageId = some tariff)
    {seconds : Int} (stats : StatsPackage)
    (hstats : stats =
      (StatsPackageManager.getCurrent m callInfo account servicePackage tariff).1)
    (hle : seconds ≤ max (stats.paidSeconds - stats.usedSeconds) 0) :
    ChoiceOk (StatsPackageManager.getCurrent m callInfo account servicePackage tariff).2
      ⟨seconds, servicePackage, tariff, stats⟩ := by
  have hrow : (StatsPackageManager.getCurrent m callInfo account servicePackage
      tariff).2.rows[stats.id]? = some stats := by
    rw [hstats]
    refine h.books.getCurrent_row fun id => ?_
    unfold StatsPackageManager.createStatsPackage
    split
    · rfl
    · rfl
  have hpaid := (h.getCurrent account hok htariff).paid stats.id stats hrow
  refine ⟨hrow, ?_⟩
  show stats.usedSeconds + seconds ≤ stats.paidSeconds
  omega

/-- Whatever package is chosen, the seconds are left on it. -/
theorem choosePackage_spec (account : Client) (packages : List ServicePackage) (best : Option PrepaidChoice)
    (h : PackageInv added m) (hbest : ∀ choice, best = some choice → ChoiceOk m choice)
    (hok : ∀ servicePackage ∈ packages,
      PackageOk env.repository.data callInfo.call.connectTime servicePackage) :
    PackageInv added (choosePackage env callInfo account packages best m).2 ∧
      ∀ choice, (choosePackage env callInfo account packages best m).1 = some choice →
        ChoiceOk (choosePackage env callInfo account packages best m).2 choice := by
  induction packages generalizing best m with
  | nil => exact ⟨h, hbest⟩
  | cons servicePackage packages ih =>
      have hokHead := hok servicePackage List.mem_cons_self
      have hokTail : ∀ p ∈ packages,
          PackageOk env.repository.data callInfo.call.connectTime p :=
        fun p hp => hok p (List.mem_cons_of_mem servicePackage hp)
      rw [choosePackage]
      split
      case h_1 => exact ih best h hbest hokTail
      case h_2 tariff hprepaid =>
        have htariff := (prepaidTariff_eq_some hprepaid).1
        have hinv := h.getCurrent account hokHead htariff
        dsimp only
        split
        case isTrue hcovers =>
          refine ⟨hinv, fun choice hchoice => ?_⟩
          rw [← Option.some.inj hchoice]
          exact choiceOk_of_le h hokHead htariff _ rfl hcovers
        case isFalse =>
          split
          case isTrue =>
            refine ih _ hinv (fun choice hchoice => ?_) hokTail
            rw [← Option.some.inj hchoice]
            exact choiceOk_of_le h hokHead htariff _ rfl (le_refl _)
          case isFalse =>
            exact ih best hinv (fun choice hchoice => (hbest choice hchoice).getCurrent h _ _)
              hokTail

/-- Packages without prepaid minutes are passed over. -/
theorem choosePackage_of_none {packages : List ServicePackage} {best : Option PrepaidChoice}
    (h : ∀ servicePackage ∈ packages, prepaidTariff env callInfo servicePackage = none) :
    choosePackage env callInfo account packages best m = (best, m) := by
  induction packages with
  | nil => rfl
  | cons servicePackage packages ih =>
      rw [choosePackage, h servicePackage List.mem_cons_self]
      exact ih fun p hp => h p (List.mem_cons_of_mem servicePackage hp)

/-- A choice needs a package to choose. -/
theorem packages_ne_nil_of_choosePackage {packages : List ServicePackage} {choice : PrepaidChoice}
    (h : (choosePackage env callInfo account packages none m).1 = some choice) :
    packages ≠ [] := by
  rintro rfl
  exact absurd h (by simp [choosePackage])

end Choose

/-! ## The charge of one leg -/

/-- The seconds the leg takes are left on the row it carries the id of, and the
counter will book them. -/
structure Taken (s : PricingState) : Prop where
  number : s.services.numberServiceId ≠ 0
  servicePackage : s.charge.servicePackagePrepaid ≠ none
  fits : ∃ stats, s.charge.statsPackage.rows[s.charge.servicePackageStatsId]? = some stats ∧
    stats.usedSeconds + s.charge.packageTime ≤ stats.paidSeconds

/-- What holds of a leg however its pricing ends. -/
def Settled (added : List Call) (s : PricingState) : Prop :=
  PackageInv added s.charge.statsPackage ∧
    (s.charge.servicePackageId ≤ 1 ∨ s.charge.servicePackageStatsId = 0 ∨ Taken s)

theorem Settled.of_focus {added : List Call} {s s' : PricingState} (h : s'.focus = s.focus)
    (hs : Settled added s) : Settled added s' := by
  obtain ⟨hservices, hcharge⟩ := Prod.mk.inj h
  obtain ⟨hinv, hrow⟩ := hs
  rw [Settled, hcharge]
  refine ⟨hinv, hrow.imp_right (Or.imp_right fun htaken => ?_)⟩
  exact ⟨hservices ▸ htaken.number, hcharge ▸ htaken.servicePackage, hcharge ▸ htaken.fits⟩

/-- The books are right and no row has been chosen. -/
def NoRow (added : List Call) (connectTime : Int) (s : PricingState) : Prop :=
  PackageInv added s.charge.statsPackage ∧ s.charge.connectTime = connectTime ∧
    s.charge.servicePackageStatsId = 0

/-- A leg by number before prepaid packages are looked at: it carries no row, or
one of free minutes. -/
def NoPackageRow (added : List Call) (connectTime : Int) (s : PricingState) : Prop :=
  PackageInv added s.charge.statsPackage ∧ s.charge.connectTime = connectTime ∧
    (s.charge.servicePackageStatsId = 0 ∨ s.charge.servicePackageId = 1)

/-- The leg belongs to a number service. -/
def HasNumber (s : PricingState) : Prop :=
  ∃ serviceNumber, s.services.serviceNumber = some serviceNumber ∧
    s.services.numberServiceId = serviceNumber.id

/-- The leg belongs to no number service, and to a service of the trunk or none. -/
def OfTrunk (env : PricingEnv) (trunk : Trunk) (s : PricingState) : Prop :=
  s.services.serviceNumber = none ∧ ∀ serviceTrunk, s.services.serviceTrunk = some serviceTrunk →
    serviceTrunk ∈ env.repository.getAllServiceTrunk trunk.id

section Leg

variable {env : PricingEnv} {added : List Call} {connectTime : Int}

theorem NoRow.settled {s : PricingState} (h : NoRow added connectTime s) : Settled added s :=
  ⟨h.1, Or.inr (Or.inl h.2.2)⟩

theorem NoPackageRow.settled {s : PricingState} (h : NoPackageRow added connectTime s) :
    Settled added s := by
  obtain ⟨hinv, -, hzero | hone⟩ := h
  · exact ⟨hinv, Or.inr (Or.inl hzero)⟩
  · exact ⟨hinv, Or.inl (by omega)⟩

theorem NoRow.of_booking {s s' : PricingState} (h : s'.booking = s.booking)
    (hs : NoRow added connectTime s) : NoRow added connectTime s' := by
  have hstats : s'.charge.statsPackage = s.charge.statsPackage :=
    congrArg (fun booking => booking.2.statsPackage) h
  have htime : s'.charge.connectTime = s.charge.connectTime :=
    congrArg (fun booking => booking.2.connectTime) h
  have hrow : s'.charge.servicePackageStatsId = s.charge.servicePackageStatsId :=
    congrArg (fun booking => booking.2.servicePackageStatsId) h
  rw [NoRow, hstats, htime, hrow]
  exact hs

theorem OfTrunk.of_services {trunk : Trunk} {s s' : PricingState} (h : s'.services = s.services)
    (hs : OfTrunk env trunk s) : OfTrunk env trunk s' := by
  rw [OfTrunk, h]
  exact hs

theorem HasNumber.of_services {s s' : PricingState} (h : s'.services = s.services)
    (hs : HasNumber s) : HasNumber s' := by
  rw [HasNumber, h]
  exact hs

/-- Free minutes set the reserved package id together with the row. -/
theorem triple_setupFreemin {E : PricingState → Prop}
    (hE : ∀ s, NoRow added connectTime s → E s) :
    Triple (fun s => NoRow added connectTime s ∧ HasNumber s) setupFreemin
      (fun _ s => NoPackageRow added connectTime s ∧ HasNumber s) E := by
  have hweak : ∀ s, NoRow added connectTime s ∧ HasNumber s →
      NoPackageRow added connectTime s ∧ HasNumber s :=
    fun s hs => ⟨⟨hs.1.1, hs.1.2.1, Or.inl hs.1.2.2⟩, hs.2⟩
  unfold setupFreemin
  refine triple_getCallInfo fun callInfo => ?_
  refine Triple.pre (P := fun s => NoRow added connectTime s ∧ HasNumber s) ?_ fun s hs => hs.1
  refine triple_onlyIf (fun _ => ?_) fun _ => hweak
  refine triple_deref (fun s hs => hE s hs.1) fun mainTariff _ => ?_
  refine triple_deref (fun s hs => hE s hs.1) fun serviceNumber _ => ?_
  refine triple_onlyIf (fun _ => ?_) fun _ => hweak
  refine triple_get_bind fun s₀ => ?_
  refine triple_bind (R := fun _ s => NoRow added connectTime s ∧ HasNumber s)
    (triple_modify fun s hs => hs.1) fun _ => ?_
  refine triple_onlyIf (fun _ => ?_) fun _ => hweak
  exact triple_modifyCallInfo fun s hs => ⟨⟨hs.1.1, hs.1.2.1, Or.inr rfl⟩, hs.2⟩

/-- Seconds of a prepaid package are taken from a row that has them left. -/
theorem triple_setupPackagePrepaid_number {E : PricingState → Prop}
    (hok : ∀ id, ∀ servicePackage ∈ env.repository.getAllServiceNumberPackage id,
      PackageOk env.repository.data connectTime servicePackage)
    (hE : ∀ s, Settled added s → E s) :
    Triple (fun s => NoPackageRow added connectTime s ∧ HasNumber s) (setupPackagePrepaid env)
      (fun _ => Settled added) E := by
  unfold setupPackagePrepaid
  refine triple_getCallInfo fun callInfo => ?_
  refine triple_onlyIf (fun hcond => ?_) fun _ s hs => hs.1.1.settled
  simp only [Bool.and_eq_true, bne_iff_ne, Bool.not_eq_true', decide_eq_false_iff_not] at hcond
  refine triple_deref (fun s hs => hE s hs.1.1.settled) fun account _ => ?_
  intro s₀ hs₀
  obtain ⟨⟨⟨hinv, htime, hrow⟩, serviceNumber, hnumber, hid⟩, rfl⟩ := hs₀
  -- no package id is set yet, so the leg carries no row of free minutes
  have hzero : s₀.charge.servicePackageStatsId = 0 := by
    rcases hrow with hzero | hone
    · exact hzero
    · have hpos : ¬ 0 < s₀.charge.servicePackageId := hcond.2
      omega
  have hpackages : packagesOf env s₀.callInfo =
      env.repository.getAllServiceNumberPackage serviceNumber.id := by
    have hsome : s₀.callInfo.serviceNumber = some serviceNumber := hnumber
    rw [packagesOf, hsome]
  have hpackagesOk : ∀ servicePackage ∈ packagesOf env s₀.callInfo,
      PackageOk env.repository.data s₀.callInfo.call.connectTime servicePackage := by
    intro servicePackage hmem
    have hconnect : s₀.callInfo.call.connectTime = connectTime := htime
    rw [hpackages] at hmem
    rw [hconnect]
    exact hok _ servicePackage hmem
  have hnone : ∀ choice : PrepaidChoice, none = some choice →
      ChoiceOk s₀.charge.statsPackage choice := fun choice h => absurd h (by simp)
  obtain ⟨hinv', hchoice⟩ := choosePackage_spec account (packagesOf env s₀.callInfo) none hinv
    hnone hpackagesOk
  have hnonempty : ∀ choice, (choosePackage env s₀.callInfo account
      (packagesOf env s₀.callInfo) none s₀.charge.statsPackage).1 = some choice →
      packagesOf env s₀.callInfo ≠ [] := fun choice => packages_ne_nil_of_choosePackage
  show Ends (fun _ => Settled added) E (exec
    (whenSome (choosePackage env s₀.callInfo account (packagesOf env s₀.callInfo) none
      s₀.charge.statsPackage).1 fun choice => modifyCallInfo (applyPrepaid choice))
    { s₀ with billingData := { s₀.billingData with
        statsPackage := (choosePackage env s₀.callInfo account (packagesOf env s₀.callInfo) none
          s₀.charge.statsPackage).2 } })
  generalize choosePackage env s₀.callInfo account (packagesOf env s₀.callInfo) none
    s₀.charge.statsPackage = found at hinv' hchoice hnonempty
  obtain ⟨best, m⟩ := found
  cases best with
  | none => exact ⟨hinv', Or.inr (Or.inl hzero)⟩
  | some choice =>
      have hchoiceOk := hchoice choice rfl
      refine ⟨hinv', Or.inr (Or.inr ⟨?_, by simp [applyPrepaid, PricingState.charge], ?_⟩)⟩
      · -- the leg has packages, so its number service has an id
        obtain ⟨servicePackage, hmem⟩ := List.exists_mem_of_ne_nil _ (hnonempty choice rfl)
        rw [hpackages] at hmem
        have hpos := Repository.pos_of_mem_getAllServiceNumberPackage hmem
        show s₀.services.numberServiceId ≠ 0
        omega
      · exact ⟨choice.statsPackage, hchoiceOk.row, hchoiceOk.fits⟩

/-- Packages without prepaid minutes leave the leg without a row. -/
theorem triple_setupPackagePrepaid_trunk {trunk : Trunk} {E : PricingState → Prop}
    (hzero : ∀ serviceTrunk ∈ env.repository.getAllServiceTrunk trunk.id,
      ∀ servicePackage ∈ env.repository.getAllServiceTrunkPackage serviceTrunk.id,
      ∀ tariff, env.repository.data.tariffPackage servicePackage.tariffPackageId = some tariff →
        tariff.prepaidMinutes = 0)
    (hE : ∀ s, Settled added s → E s) :
    Triple (fun s => NoRow added connectTime s ∧ OfTrunk env trunk s) (setupPackagePrepaid env)
      (fun _ => Settled added) E := by
  unfold setupPackagePrepaid
  refine triple_getCallInfo fun callInfo => ?_
  refine triple_onlyIf (fun _ => ?_) fun _ s hs => hs.1.1.settled
  refine triple_deref (fun s hs => hE s hs.1.1.settled) fun account _ => ?_
  intro s₀ hs₀
  obtain ⟨⟨hrow, hnumber, htrunk⟩, rfl⟩ := hs₀
  -- no package of the trunk grants minutes
  have hnone : ∀ servicePackage ∈ packagesOf env s₀.callInfo,
      prepaidTariff env s₀.callInfo servicePackage = none := by
    intro servicePackage hmem
    have hnoNumber : s₀.callInfo.serviceNumber = none := hnumber
    cases hservice : s₀.callInfo.serviceTrunk with
    | none =>
        rw [packagesOf, hnoNumber, hservice] at hmem
        exact absurd hmem (by simp)
    | some serviceTrunk =>
        rw [packagesOf, hnoNumber, hservice] at hmem
        cases hprepaid : prepaidTariff env s₀.callInfo servicePackage with
        | none => rfl
        | some tariff =>
            obtain ⟨htariff, hminutes⟩ := prepaidTariff_eq_some hprepaid
            exact absurd (hzero serviceTrunk (htrunk serviceTrunk hservice) servicePackage hmem
              tariff htariff) hminutes
  show Ends (fun _ => Settled added) E (exec
    (whenSome (choosePackage env s₀.callInfo account (packagesOf env s₀.callInfo) none
      s₀.charge.statsPackage).1 fun choice => modifyCallInfo (applyPrepaid choice))
    { s₀ with billingData := { s₀.billingData with
        statsPackage := (choosePackage env s₀.callInfo account (packagesOf env s₀.callInfo) none
          s₀.charge.statsPackage).2 } })
  rw [choosePackage_of_none hnone]
  exact hrow.settled

/-- Version 4 by number. -/
theorem triple_calcOrigByNumberV4
    (hok : ∀ id, ∀ servicePackage ∈ env.repository.getAllServiceNumberPackage id,
      PackageOk env.repository.data connectTime servicePackage) :
    Triple (fun s => NoRow added connectTime s ∧ HasNumber s) (calcOrigByNumberV4 env)
      (fun _ => Settled added) (Settled added) := by
  have hnoRow : ∀ s, NoRow added connectTime s → Settled added s := fun s hs => hs.settled
  have hnumber : ∀ s, NoRow added connectTime s ∧ HasNumber s → Settled added s :=
    fun s hs => hs.1.settled
  have hkeep : ∀ {s s' : PricingState}, s'.booking = s.booking →
      NoRow added connectTime s ∧ HasNumber s → NoRow added connectTime s' ∧ HasNumber s' :=
    fun h hs => ⟨hs.1.of_booking h, hs.2.of_services (congrArg Prod.fst h)⟩
  unfold calcOrigByNumberV4
  refine (keeps_booking (keeps_setupLogTariff env)).andThen hkeep hnumber fun _ => ?_
  refine (keeps_booking (keeps_setupMainTariff env)).andThen hkeep hnumber fun _ => ?_
  refine (keeps_booking (keeps_setupBilledTime env)).andThen hkeep hnumber fun _ => ?_
  refine (keeps_setupPackagePricelist env).andThen hkeep hnumber fun _ => ?_
  refine keeps_getCallInfo.andThen hkeep hnumber fun callInfo => ?_
  refine (keeps_booking (keeps_setupOrigPrice env _)).andThen hkeep hnumber fun _ => ?_
  refine triple_bind (triple_setupFreemin hnoRow) fun _ => ?_
  refine triple_bind (triple_setupPackagePrepaid_number hok fun s hs => hs) fun _ => ?_
  exact keeps_setupCost.triple Settled.of_focus (fun s hs => hs) fun _ s hs => hs

/-- Version 4 by trunk, originating. -/
theorem triple_calcByTrunkV4 {trunk : Trunk}
    (hzero : ∀ serviceTrunk ∈ env.repository.getAllServiceTrunk trunk.id,
      ∀ servicePackage ∈ env.repository.getAllServiceTrunkPackage serviceTrunk.id,
      ∀ tariff, env.repository.data.tariffPackage servicePackage.tariffPackageId = some tariff →
        tariff.prepaidMinutes = 0) :
    Triple (fun s => NoRow added connectTime s ∧ OfTrunk env trunk s) (calcByTrunkV4 env true)
      (fun _ => Settled added) (Settled added) := by
  have htrunk : ∀ s, NoRow added connectTime s ∧ OfTrunk env trunk s → Settled added s :=
    fun s hs => hs.1.settled
  have hkeep : ∀ {s s' : PricingState}, s'.booking = s.booking →
      NoRow added connectTime s ∧ OfTrunk env trunk s →
      NoRow added connectTime s' ∧ OfTrunk env trunk s' :=
    fun h hs => ⟨hs.1.of_booking h, hs.2.of_services (congrArg Prod.fst h)⟩
  unfold calcByTrunkV4
  refine (keeps_onlyIf (keeps_setupPackagePricelist env)).andThen hkeep htrunk fun _ => ?_
  refine (keeps_booking (keeps_setupFoundPrice env)).andThen hkeep htrunk fun _ => ?_
  refine (keeps_booking (keeps_setupBilledTime env)).andThen hkeep htrunk fun _ => ?_
  refine triple_bind (triple_setupPackagePrepaid_trunk hzero fun s hs => hs) fun _ => ?_
  refine keeps_setupInterconnect.andThen Settled.of_focus (fun s hs => hs) fun _ => ?_
  exact keeps_setupCost.triple Settled.of_focus (fun s hs => hs) fun _ s hs => hs

/-- Version 5 by number looks at no version 4 counter. -/
theorem triple_calcOrigNNPByNumber :
    Triple (NoRow added connectTime) (calcOrigNNPByNumber env) (fun _ => Settled added)
      (Settled added) := by
  have hsettled : ∀ s : PricingState, PackageInv added s.prepaid.2.1 ∧ s.prepaid.2.2.2 = 0 →
      Settled added s := fun s hs => ⟨hs.1, Or.inr (Or.inl hs.2)⟩
  refine Triple.pre ((keeps_calcOrigNNPByNumber env).triple ?_ hsettled fun _ => hsettled) ?_
  · intro s s' h hs
    rw [h]
    exact hs
  · exact fun s hs => ⟨hs.1, hs.2.2⟩

end Leg

/-! ## Runs -/

/-- A leg whose prepaid packages are counted right: it has a connect time, no
package in force grants negative time, and an originating leg by trunk has no
package with prepaid minutes. -/
structure PrepaidOk (env : BillingEnv) (leg : Leg) : Prop where
  connectTime : leg.cdr.connectTime ≠ 0
  minutes : ∀ servicePackage ∈ env.data.servicePackage,
    (leg.pricingEnv env).repository.isInForce servicePackage = true →
    ∀ tariff, env.data.tariffPackage servicePackage.tariffPackageId = some tariff →
      0 ≤ tariff.prepaidMinutes
  trunk : leg.orig = true → ∀ trunk, legTrunk (leg.pricingEnv env) true = some trunk →
    (trunk.authByNumber || isNeedForceCalcByNumber (leg.pricingEnv env) true) = false →
    ∀ serviceTrunk ∈ (leg.pricingEnv env).repository.getAllServiceTrunk trunk.id,
    ∀ servicePackage ∈
      (leg.pricingEnv env).repository.getAllServiceTrunkPackage serviceTrunk.id,
    ∀ tariff, env.data.tariffPackage servicePackage.tariffPackageId = some tariff →
      tariff.prepaidMinutes = 0

section Run

variable {env : BillingEnv} {s t : PricingSys} {leg : Leg}

theorem PrepaidOk.packageOk (h : PrepaidOk env leg) {id : Int} {servicePackage : ServicePackage}
    (hmem : servicePackage ∈ (leg.pricingEnv env).repository.getAllServiceNumberPackage id) :
    PackageOk env.data leg.cdr.connectTime servicePackage := by
  have hforce := Repository.isInForce_of_mem_getAllServiceNumberPackage hmem
  have htime : (leg.pricingEnv env).repository.currentTime = leg.cdr.connectTime :=
    if_neg h.connectTime
  have hwindow := hforce
  simp only [Repository.isInForce, htime, Bool.and_eq_true, decide_eq_true_eq] at hwindow
  exact ⟨hwindow.1, by omega,
    h.minutes servicePackage (Repository.mem_servicePackage_of_number hmem) hforce⟩

theorem chargingPaths_settled (h : PrepaidOk env leg)
    (hinv : PackageInv s.added s.billingData.statsPackage) :
    ChargingPaths (leg.pricingEnv env) (s.start leg).charge (Settled s.added) := by
  have hnoRow : ∀ p, Unspent (s.start leg).charge p → NoRow s.added leg.cdr.connectTime p := by
    intro p hp
    rw [NoRow, hp]
    exact ⟨hinv, rfl, rfl⟩
  refine ⟨fun p hp => (hnoRow p hp).settled,
    fun p hp => hp.of_focus (keeps_setVatFlag (leg.pricingEnv env) p), fun _ => ?_, fun _ => ?_,
    fun horig trunk hleg hauth => ?_⟩
  · exact triple_calcOrigNNPByNumber.pre fun p hp => hnoRow p hp.1
  · exact (triple_calcOrigByNumberV4 fun id servicePackage hmem => h.packageOk hmem).pre
      fun p hp => ⟨hnoRow p hp.1, hp.2⟩
  · exact (triple_calcByTrunkV4 (h.trunk horig trunk hleg hauth)).pre
      fun p hp => ⟨hnoRow p hp.1, hp.2⟩

/-- A call that no row is charged with. -/
theorem PackageInv.add_none {added : List Call} {m : StatsPackageManager} {callInfo : CallInfo}
    (h : PackageInv added m) (hbooked : StatsPackageManager.bookedRow callInfo = none)
    (hcall : packageOf callInfo.call = none ∨ packageOf callInfo.call = some 0) :
    PackageInv (added ++ [callInfo.call]) (StatsPackageManager.add m callInfo) := by
  rw [StatsPackageManager.add, hbooked]
  exact ⟨h.books.add_none hcall, h.paid⟩

/-- A call whose seconds are left on its row. -/
theorem PackageInv.add_row {added : List Call} {m : StatsPackageManager} {callInfo : CallInfo}
    {id : Int} {stats : StatsPackage} (h : PackageInv added m)
    (hbooked : StatsPackageManager.bookedRow callInfo = some id)
    (hcall : packageOf callInfo.call = some id) (hrow : m.rows[id]? = some stats)
    (hfits : stats.usedSeconds + callInfo.call.packageTime ≤ stats.paidSeconds) :
    PackageInv (added ++ [callInfo.call]) (StatsPackageManager.add m callInfo) := by
  have hadd : StatsPackageManager.add m callInfo =
      m.putRow id (StatsPackageManager.updateStatsPackage callInfo.call stats) := by
    simp only [StatsPackageManager.add, hbooked, UsageManager.addBooked, UsageManager.book, hrow]
  rw [hadd]
  refine ⟨h.books.add_row hcall hrow rfl rfl, ?_⟩
  intro id' stats' hrow'
  rcases UsageManager.of_putRow hrow' with ⟨rfl, rfl⟩ | hold
  · exact hfits
  · exact h.paid id' stats' hold

/-- Adding a settled leg books what it has taken. -/
theorem Settled.add {priced : PricingState} (h : Settled s.added priced) :
    PackageInv (s.add priced).added (s.add priced).billingData.statsPackage := by
  obtain ⟨hrows, hlast⟩ := priced.billingData.addCall_statsPackage priced.callInfo
  suffices hadd : PackageInv (s.added ++ [priced.callInfo.call])
      (StatsPackageManager.add priced.billingData.statsPackage priced.callInfo) from
    ⟨hadd.books.congr hrows hlast, fun id stats hrow => hadd.paid id stats (hrows ▸ hrow)⟩
  obtain ⟨hinv, hcarried⟩ := h
  have hpackageOf : packageOf priced.callInfo.call =
      if 1 < priced.charge.servicePackageId then some priced.charge.servicePackageStatsId
      else none := rfl
  by_cases hprepaid : priced.charge.servicePackageId ≤ 1
  · refine hinv.add_none ?_ (Or.inl ?_)
    · exact if_pos (Or.inr (Or.inl hprepaid))
    · rw [hpackageOf, if_neg (by omega)]
  rw [if_pos (by omega)] at hpackageOf
  by_cases hzero : priced.charge.servicePackageStatsId = 0
  · refine hinv.add_none ?_ (Or.inr ?_)
    · exact if_pos (Or.inr (Or.inr (Or.inl hzero)))
    · rw [hpackageOf, hzero]
  · obtain ⟨hnumber, hpackage, stats, hrow, hfits⟩ :=
      (hcarried.resolve_left hprepaid).resolve_left hzero
    refine hinv.add_row (if_neg ?_) hpackageOf hrow hfits
    rintro (h | h | h | h)
    · exact hnumber h
    · exact hprepaid h
    · exact hzero h
    · exact hpackage h

theorem step_packageInv (hinv : PackageInv s.added s.billingData.statsPackage)
    (hok : PrepaidOk env leg) (hstep : PricingSys.step env s leg = some t) :
    PackageInv t.added t.billingData.statsPackage := by
  obtain ⟨priced, hsettled, rfl⟩ := PricingSys.step_of_triple
    (triple_tariffication (chargingPaths_settled hok hinv)) ⟨rfl, rfl, rfl⟩ hstep
  exact hsettled.add

/-- **Prepaid packages are conserved.**  In every run over fixed tables whose legs
satisfy `PrepaidOk`, each row counts the seconds of the calls that carry its id,
and never more than were paid for. -/
theorem used_seconds_eq_taken {legs : List Leg}
    (hempty : s.billingData.statsPackage = UsageManager.empty) (hadded : s.added = [])
    (hok : ∀ leg ∈ legs, PrepaidOk env leg)
    (hrun : run (PricingSys.step env) s legs = some t) (id : Int) (stats : StatsPackage)
    (hrow : t.billingData.statsPackage.rows[id]? = some stats) :
    stats.id = id ∧ stats.usedSeconds = takenSeconds packageOf id t.added ∧
      stats.usedSeconds ≤ stats.paidSeconds := by
  have hstart : PackageInv s.added s.billingData.statsPackage := by
    rw [hempty, hadded]
    exact ⟨Books.empty, fun id stats h => absurd h (by simp [UsageManager.empty])⟩
  have hstep : ∀ (s : PricingSys) (leg : Leg) (s' : PricingSys),
      PackageInv s.added s.billingData.statsPackage → PrepaidOk env leg →
      PricingSys.step env s leg = some s' → PackageInv s'.added s'.billingData.statsPackage :=
    fun s leg s' => step_packageInv
  have hinv : PackageInv t.added t.billingData.statsPackage :=
    run_invariant_of_meets hstep hstart (meets_of_forall (fun leg hleg _ => hok leg hleg) s) hrun
  obtain ⟨-, hid, hused⟩ := hinv.books.row id stats hrow
  exact ⟨hid, hused, hinv.paid id stats hrow⟩

end Run

/-! ## A number with a package, and a trunk with one -/

/-- The tables both legs below are priced with: a package of ten minutes for
numbers that begin with 7. -/
def packageTables : DataContainer where
  server := fun _ => some { id := 1 }
  instanceSettings := fun _ => some { id := 1 }
  client := fun _ => some { id := 3, accountVersion := 4 }
  pricelist := fun _ => some { id := 5 }
  pricelistPrice := fun _ _ _ => some { price := 1 }
  tariffPackage := fun _ => some { id := 2, destinationId := 4, prepaidMinutes := 10 }
  statDestinationPrefixlists := fun _ => [6]
  statPrefixlist := fun _ => some { id := 6, typeId := 1, prefixes := [7] }

def numberTables : DataContainer :=
  { packageTables with
    trunkByName := fun _ _ => some { id := 1, serverId := 1, ourTrunk := true, authByNumber := true }
    serviceNumber := fun _ _ => some { id := 9, clientAccountId := 3 }
    tariffChangeLog := fun _ _ => some {}
    tariff := fun _ => some { id := 12, pricelistId := 5 }
    servicePackage :=
      [{ id := 11, serviceNumberId := 9, expireDt := 5000, tariffPackageId := 2 }] }

def trunkTables : DataContainer :=
  { packageTables with
    trunkByName := fun _ _ => some { id := 1, serverId := 1 }
    serviceTrunks := fun _ _ => [{ id := 7, clientAccountId := 3, trunkId := 1 }]
    serviceTrunkSettings := fun _ _ => [{ id := 8, trunkId := 7, pricelistId := 5 }]
    servicePackage :=
      [{ id := 11, serviceTrunkId := 7, expireDt := 5000, tariffPackageId := 2 }] }

def minuteLeg : Leg where
  cdr := { connectTime := 1000, sessionTime := 60, dstNumber := ['7', '9'], srcRoute := ['t'] }
  orig := true

theorem minuteLeg_prepaidOk : PrepaidOk { data := numberTables } minuteLeg where
  connectTime := by decide
  minutes := by
    intro servicePackage _ _ tariff htariff
    rw [← Option.some.inj htariff]
    decide
  trunk := by
    intro _ trunk htrunk hauth
    rw [← Option.some.inj htrunk] at hauth
    exact absurd hauth (by decide)

/-- Two calls of a number take two minutes from its package. -/
theorem used_seconds_eq_taken_of_twoCalls :
    ∃ t stats, run (PricingSys.step { data := numberTables }) PricingSys.empty
        [minuteLeg, minuteLeg] = some t ∧
      t.billingData.statsPackage.rows[(1 : Int)]? = some stats ∧ stats.usedSeconds = 120 ∧
      stats.usedSeconds = takenSeconds packageOf 1 t.added ∧
      stats.usedSeconds ≤ stats.paidSeconds := by
  have hrows : (run (PricingSys.step { data := numberTables }) PricingSys.empty
      [minuteLeg, minuteLeg]).bind (fun t =>
        t.billingData.statsPackage.rows[(1 : Int)]?.map (·.usedSeconds)) = some 120 := by
    decide +kernel
  obtain ⟨t, hrun, hused⟩ := Option.bind_eq_some_iff.mp hrows
  obtain ⟨stats, hrow, hseconds⟩ := Option.map_eq_some_iff.mp hused
  have hok : ∀ leg ∈ [minuteLeg, minuteLeg], PrepaidOk { data := numberTables } leg := by
    simp [minuteLeg_prepaidOk]
  obtain ⟨-, htaken, hpaid⟩ := used_seconds_eq_taken rfl rfl hok hrun 1 stats hrow
  exact ⟨t, stats, hrun, hrow, hseconds, htaken, hpaid⟩

/-- A call of a trunk takes a minute from the package of the trunk service, and
its row does not count it. -/
theorem used_seconds_ne_taken_of_trunk :
    ¬ ∀ (env : BillingEnv) (legs : List Leg) (t : PricingSys),
      run (PricingSys.step env) PricingSys.empty legs = some t →
      ∀ (id : Int) (stats : StatsPackage), t.billingData.statsPackage.rows[id]? = some stats →
        stats.usedSeconds = takenSeconds packageOf id t.added ∧
          stats.usedSeconds ≤ stats.paidSeconds := by
  intro h
  have hrows : (run (PricingSys.step { data := trunkTables }) PricingSys.empty [minuteLeg]).map
      (fun t => (t.billingData.statsPackage.rows[(1 : Int)]?.map (·.usedSeconds),
        takenSeconds packageOf 1 t.added)) = some (some 0, 60) := by
    decide +kernel
  obtain ⟨t, hrun, hpair⟩ := Option.map_eq_some_iff.mp hrows
  obtain ⟨hused, htaken⟩ := Prod.mk.inj hpair
  obtain ⟨stats, hrow, hzero⟩ := Option.map_eq_some_iff.mp hused
  have hsame := (h _ _ t hrun 1 stats hrow).1
  omega

end PackagePrepaid
end VoipBill
