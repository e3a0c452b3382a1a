import VoipBill.Billing.UsageBooks
import VoipBill.Lib.Months
import VoipBill.Lib.Tiling

/-!
# Usage windows

Rows of trunk settings and of packages count the usage in a window: a month of the account,
for a package cut off at its validity, or the whole validity.  A row is created when the first
call in its window asks for it.

* `monthTiling`: the months of an account as windows that are disjoint or equal;
* `LazyWindows`: rows that are created on demand, each with the window of its time;
* `inv_ask`: a lookup keeps the windows of a key disjoint, since a row is created only when no
  window of the key contains the time;
* `windows_unique`: both managers, over any sequence of lookups.
-/

namespace VoipBill

open Lib Lib.Calendar

/-! ## Months of an account -/

/-- The number of the month of a time, where clocks are `z` hours ahead. -/
def monthAt (z t : Int) : Int := monthNumber ((t + 3600 * z) / 86400)

theorem getTmonth_eq_monthFirst (t z : Int) :
    getTmonth t z = 86400 * monthFirst (monthAt z t) - 3600 * z := by
  rw [getTmonth_eq, monthAt, monthFirst_monthNumber]

theorem getTmonthEnd_eq_monthFirst (t z : Int) :
    getTmonthEnd t z = 86400 * monthFirst (monthAt z t + 1) - 1 - 3600 * z := by
  rw [getTmonthEnd_eq, monthAt, monthFirst_succ_monthNumber]

/-- A time lies between the ends of the month of another one exactly when it has the same
month. -/
theorem mem_month_iff {s t z : Int} :
    s ∈ Set.Icc (getTmonth t z) (getTmonthEnd t z) ↔ monthAt z s = monthAt z t := by
  have hmonth : monthAt z s = monthAt z t ↔ monthFirst (monthAt z t) ≤ (s + 3600 * z) / 86400 ∧
      (s + 3600 * z) / 86400 < monthFirst (monthAt z t + 1) := monthNumber_eq_iff
  rw [Set.mem_Icc, getTmonth_eq_monthFirst, getTmonthEnd_eq_monthFirst, hmonth]
  omega

/-- The months of an account. -/
def monthTiling (z : Int) : Tiling Int where
  valid _ := True
  first t := getTmonth t z
  last t := getTmonthEnd t z
  mem t _ := mem_month_iff.mpr rfl
  same t t' s _ _ hs hs' := by
    have hmonth : monthAt z t = monthAt z t' :=
      (mem_month_iff.mp hs).symm.trans (mem_month_iff.mp hs')
    rw [getTmonth_eq_monthFirst, getTmonthEnd_eq_monthFirst, hmonth, getTmonth_eq_monthFirst,
      getTmonthEnd_eq_monthFirst]
    exact ⟨rfl, rfl⟩

/-! ## Rows with windows -/

/-- Rows of type `ρ` that lookups of type `α` create, each with the window of its time. -/
structure LazyWindows (ρ α : Type) where
  id : ρ → Int
  key : ρ → Int
  first : ρ → Int
  last : ρ → Int
  requestKey : α → Int
  time : α → Int
  create : α → Int → ρ
  tiling : Int → Tiling Int
  /-- The lookups in question. -/
  Fits : α → Prop
  valid : ∀ r, Fits r → (tiling (requestKey r)).valid (time r)
  created : ∀ r i, Fits r → id (create r i) = i ∧ key (create r i) = requestKey r ∧
    first (create r i) = (tiling (requestKey r)).first (time r) ∧
    last (create r i) = (tiling (requestKey r)).last (time r)

namespace LazyWindows

variable {ρ α : Type} (W : LazyWindows ρ α)

def isCurrent (t : Int) (stats : ρ) : Bool :=
  !(decide (W.first stats > t)) && !(decide (W.last stats < t))

def ask (m : UsageManager ρ) (r : α) : ρ × UsageManager ρ :=
  m.getCurrent (W.requestKey r) (W.isCurrent (W.time r)) (W.create r)

/-- The manager after some lookups. -/
def run (m : UsageManager ρ) (requests : List α) : UsageManager ρ :=
  requests.foldl (fun m r => (W.ask m r).2) m

/-- Every row was created by a lookup, and the windows of a key are disjoint. -/
structure Inv (m : UsageManager ρ) : Prop where
  indexed : Indexed W.id W.key m
  made : ∀ (i : Int) (stats : ρ), m.rows[i]? = some stats → ∃ r, W.Fits r ∧ stats = W.create r i
  disjoint : ∀ (i j : Int) (stats stats' : ρ), m.rows[i]? = some stats →
    m.rows[j]? = some stats' → i ≠ j → W.key stats = W.key stats' →
    W.last stats < W.first stats' ∨ W.last stats' < W.first stats

variable {W} {m : UsageManager ρ} {r : α}

theorem isCurrent_iff {t : Int} {stats : ρ} :
    W.isCurrent t stats = true ↔ t ∈ Set.Icc (W.first stats) (W.last stats) := by
  simp only [isCurrent, Bool.and_eq_true, Bool.not_eq_true', decide_eq_false_iff_not, gt_iff_lt,
    not_lt, Set.mem_Icc]

theorem inv_empty : W.Inv UsageManager.empty where
  indexed := Indexed.empty
  made i stats h := absurd h (by simp [UsageManager.empty])
  disjoint i j stats stats' h := absurd h (by simp [UsageManager.empty])

/-- A row that would be created has a window apart from all windows of its key. -/
theorem disjoint_create (h : W.Inv m) (hfits : W.Fits r)
    (hfind : m.findCurrent (W.requestKey r) (W.isCurrent (W.time r)) = none) {i j : Int}
    {stats : ρ} (hrow : m.rows[j]? = some stats) (hkey : W.key stats = W.requestKey r) :
    W.last (W.create r i) < W.first stats ∨ W.last stats < W.first (W.create r i) := by
  obtain ⟨-, -, hfirst, hlast⟩ := W.created r i hfits
  obtain ⟨r', hfits', hmade⟩ := h.made j stats hrow
  obtain ⟨-, hkey', hfirst', hlast'⟩ := W.created r' j hfits'
  rw [← hmade] at hkey' hfirst' hlast'
  have hsame : W.requestKey r' = W.requestKey r := hkey'.symm.trans hkey
  have hvalid' := W.valid r' hfits'
  rw [hsame] at hfirst' hlast' hvalid'
  -- the time is in none of the windows, or the row would have been found
  have hout := h.indexed.of_findCurrent_eq_none hfind hrow hkey
  rw [Bool.eq_false_iff, Ne, isCurrent_iff, hfirst', hlast'] at hout
  rw [hfirst, hlast, hfirst', hlast']
  exact (W.tiling (W.requestKey r)).disjoint_of_notMem (W.valid r hfits) hvalid' hout

/-- **A lookup** keeps the windows of every key disjoint. -/
theorem inv_ask (h : W.Inv m) (hfits : W.Fits r) : W.Inv (W.ask m r).2 := by
  have hcreated : ∀ i, W.id (W.create r i) = i ∧ W.key (W.create r i) = W.requestKey r := fun i =>
    ⟨(W.created r i hfits).1, (W.created r i hfits).2.1⟩
  have hindexed : Indexed W.id W.key (W.ask m r).2 := h.indexed.getCurrent hcreated
  refine ⟨hindexed, UsageManager.forall_getCurrent h.made ⟨r, hfits, rfl⟩, ?_⟩
  have hsymm : ∀ {stats stats' : ρ},
      (W.key stats = W.key stats' →
        W.last stats < W.first stats' ∨ W.last stats' < W.first stats) →
      W.key stats' = W.key stats →
        W.last stats' < W.first stats ∨ W.last stats < W.first stats' :=
    fun hapart hsame => (hapart hsame.symm).symm
  refine UsageManager.pairwise_getCurrent hsymm h.disjoint fun hfind i stats hrow hsame => ?_
  exact disjoint_create h hfits hfind hrow (hsame.symm.trans (hcreated _).2)

/-- The row a lookup returns is stored, has the key and contains the time. -/
theorem ask_row (h : W.Inv m) (hfits : W.Fits r) :
    (W.ask m r).2.rows[W.id (W.ask m r).1]? = some (W.ask m r).1 ∧
      W.key (W.ask m r).1 = W.requestKey r ∧
      W.time r ∈ Set.Icc (W.first (W.ask m r).1) (W.last (W.ask m r).1) := by
  have hstored : (W.ask m r).2.rows[W.id (W.ask m r).1]? = some (W.ask m r).1 :=
    h.indexed.getCurrent_row fun i => (W.created r i hfits).1
  refine ⟨hstored, ?_⟩
  unfold ask
  cases hfind : m.findCurrent (W.requestKey r) (W.isCurrent (W.time r)) with
  | some stats =>
      rw [UsageManager.getCurrent_of_some hfind]
      obtain ⟨-, hkey, hcurrent⟩ := h.indexed.of_findCurrent hfind
      exact ⟨hkey, isCurrent_iff.mp hcurrent⟩
  | none =>
      rw [UsageManager.getCurrent_of_none hfind]
      obtain ⟨-, hkey, hfirst, hlast⟩ := W.created r (m.lastStatId + 1) hfits
      refine ⟨hkey, ?_⟩
      show W.time r ∈ Set.Icc (W.first (W.create r (m.lastStatId + 1)))
        (W.last (W.create r (m.lastStatId + 1)))
      rw [hfirst, hlast]
      exact (W.tiling (W.requestKey r)).mem (W.time r) (W.valid r hfits)

/-- A lookup changes no row. -/
theorem rows_ask (h : W.Inv m) (r : α) {i : Int} {stats : ρ} (hrow : m.rows[i]? = some stats) :
    (W.ask m r).2.rows[i]? = some stats :=
  UsageManager.getCurrent_mono h.indexed.ids hrow

/-- **Any sequence of lookups** keeps the windows disjoint, and the rows. -/
theorem inv_run {requests : List α} (h : W.Inv m) (hfits : ∀ r ∈ requests, W.Fits r) :
    W.Inv (W.run m requests) ∧ ∀ (i : Int) (stats : ρ), m.rows[i]? = some stats →
      (W.run m requests).rows[i]? = some stats := by
  induction requests generalizing m with
  | nil => exact ⟨h, fun i stats hrow => hrow⟩
  | cons r requests ih =>
      have hstep := inv_ask h (hfits r (by simp))
      obtain ⟨hinv, hrows⟩ := ih hstep fun r' hmem => hfits r' (List.mem_cons_of_mem _ hmem)
      exact ⟨hinv, fun i stats hrow => hrows i stats (rows_ask h r hrow)⟩

/-- A time is in the window of one row of a key at most. -/
theorem Inv.unique (h : W.Inv m) {i j t : Int} {stats stats' : ρ} (hrow : m.rows[i]? = some stats)
    (hrow' : m.rows[j]? = some stats') (hkey : W.key stats = W.key stats')
    (ht : t ∈ Set.Icc (W.first stats) (W.last stats))
    (ht' : t ∈ Set.Icc (W.first stats') (W.last stats')) : i = j := by
  by_contra hne
  rcases h.disjoint i j stats stats' hrow hrow' hne hkey with hlt | hlt
  · exact absurd (ht'.1.trans ht.2) (not_le.mpr hlt)
  · exact absurd (ht.1.trans ht'.2) (not_le.mpr hlt)

/-- **Asking again** for a time gives the row with the same id, whatever was asked between. -/
theorem ask_again (h : W.Inv m) (hfits : W.Fits r) {between : List α}
    (hbetween : ∀ r' ∈ between, W.Fits r') {r' : α} (hfits' : W.Fits r')
    (hkey : W.requestKey r' = W.requestKey r) (htime : W.time r' = W.time r) :
    W.id (W.ask (W.run (W.ask m r).2 between) r').1 = W.id (W.ask m r).1 := by
  obtain ⟨hinv, hrows⟩ := inv_run (inv_ask h hfits) hbetween
  obtain ⟨hstored, hrowKey, hin⟩ := ask_row h hfits
  obtain ⟨hstored', hrowKey', hin'⟩ := ask_row hinv hfits'
  have hkept := rows_ask hinv r' (hrows _ _ hstored)
  rw [htime] at hin'
  have hsame := hrowKey'.trans (hkey.trans hrowKey.symm)
  exact (inv_ask hinv hfits').unique hstored' hkept hsame hin' hin

end LazyWindows

section Lookups

variable {ρ α : Type}

/-- The manager after some lookups, from the start. -/
def lookups (ask : UsageManager ρ → α → ρ × UsageManager ρ) (requests : List α) :
    UsageManager ρ :=
  requests.foldl (fun m r => (ask m r).2) UsageManager.empty

/-- After any lookups the rows of a key have disjoint windows, a lookup returns a row of its
key with its time in the window, and asking again returns the same row. -/
structure WindowsUnique (id key first last : ρ → Int) (requestKey time : α → Int)
    (Fits : α → Prop) (ask : UsageManager ρ → α → ρ × UsageManager ρ) : Prop where
  disjoint : ∀ requests : List α, (∀ r ∈ requests, Fits r) →
    ∀ (i j : Int) (stats stats' : ρ), (lookups ask requests).rows[i]? = some stats →
      (lookups ask requests).rows[j]? = some stats' → i ≠ j → key stats = key stats' →
      last stats < first stats' ∨ last stats' < first stats
  contains : ∀ requests : List α, (∀ r ∈ requests, Fits r) → ∀ r, Fits r →
    key (ask (lookups ask requests) r).1 = requestKey r ∧
      first (ask (lookups ask requests) r).1 ≤ time r ∧
      time r ≤ last (ask (lookups ask requests) r).1
  again : ∀ (before between : List α) (r r' : α),
    (∀ other ∈ before ++ r :: (between ++ [r']), Fits other) →
    requestKey r' = requestKey r → time r' = time r →
    id (ask (lookups ask (before ++ r :: between)) r').1 = id (ask (lookups ask before) r).1

theorem LazyWindows.windowsUnique (W : LazyWindows ρ α) :
    WindowsUnique W.id W.key W.first W.last W.requestKey W.time W.Fits W.ask := by
  refine ⟨fun requests hfits => ?_, fun requests hfits r hr => ?_,
    fun before between r r' hfits hkey htime => ?_⟩
  · exact (inv_run inv_empty hfits).1.disjoint
  · exact (ask_row (inv_run inv_empty hfits).1 hr).2
  · have hbefore : ∀ other ∈ before, W.Fits other := fun other hmem => hfits other (by simp [hmem])
    have hbetween : ∀ other ∈ between, W.Fits other := fun other hmem =>
      hfits other (by simp [hmem])
    have hsplit : lookups W.ask (before ++ r :: between) =
        W.run (W.ask (lookups W.ask before) r).2 between := by
      rw [lookups, List.foldl_append, List.foldl_cons]
      rfl
    rw [hsplit]
    exact ask_again (inv_run inv_empty hbefore).1 (hfits r (by simp)) hbetween
      (hfits r' (by simp)) hkey htime

end Lookups

/-! ## Trunk settings and packages -/

/-- What a lookup of trunk settings is asked with. -/
structure TrunkSettingsRequest where
  connectTime : Int
  account : Client
  trunkSettings : ServiceTrunkSettings

/-- What a lookup of a package is asked with. -/
structure PackageRequest where
  callInfo : CallInfo
  account : Client
  servicePackage : ServicePackage
  tariffPackage : TariffPackage

/-- What is fixed for a package: itself, its tariff and the time offset of its account. -/
structure PackageTerms where
  servicePackage : ServicePackage
  tariffPackage : TariffPackage
  timezoneOffset : Int

/-- The lookup is for a time in the validity of the package. -/
structure PackageRequest.Fits (terms : Int → PackageTerms) (r : PackageRequest) : Prop where
  servicePackage : r.servicePackage = (terms r.servicePackage.id).servicePackage
  tariffPackage : r.tariffPackage = (terms r.servicePackage.id).tariffPackage
  timezoneOffset : r.account.timezoneOffset = (terms r.servicePackage.id).timezoneOffset
  inForce : r.callInfo.call.connectTime ∈
    Set.Icc r.servicePackage.activationDt r.servicePackage.expireDt

namespace StatsTrunkSettingsManager

/-- Windows of trunk settings whose accounts have the given time offsets. -/
def windows (offset : Int → Int) : LazyWindows StatsTrunkSettings TrunkSettingsRequest where
  id := StatsTrunkSettings.id
  key := StatsTrunkSettings.trunkSettingsId
  first := StatsTrunkSettings.activationDt
  last := StatsTrunkSettings.expireDt
  requestKey r := r.trunkSettings.id
  time := TrunkSettingsRequest.connectTime
  create r := createStatsTrunkSettings r.connectTime r.account r.trunkSettings
  tiling k := monthTiling (offset k)
  Fits r := r.account.timezoneOffset = offset r.trunkSettings.id
  valid _ _ := trivial
  created r i h := by
    rw [← h]
    exact ⟨rfl, rfl, rfl, rfl⟩

/-- A lookup with its request. -/
def ask (m : StatsTrunkSettingsManager) (r : TrunkSettingsRequest) :
    StatsTrunkSettings × StatsTrunkSettingsManager :=
  m.getCurrent r.connectTime r.account r.trunkSettings

end StatsTrunkSettingsManager

namespace StatsPackageManager

/-- The windows of a package: its months, cut off at its validity, or the validity. -/
def packageTiling (terms : PackageTerms) : Tiling Int :=
  if terms.servicePackage.periodical then
    (monthTiling terms.timezoneOffset).clip terms.servicePackage.activationDt
      terms.servicePackage.expireDt
  else
    Tiling.whole terms.servicePackage.activationDt terms.servicePackage.expireDt

theorem createStatsPackage_window (callInfo : CallInfo) (terms : PackageTerms) (i : Int) :
    let stats := createStatsPackage callInfo terms.timezoneOffset terms.servicePackage
      terms.tariffPackage i
    stats.id = i ∧ stats.packageId = terms.servicePackage.id ∧
      stats.activationDt = (packageTiling terms).first callInfo.call.connectTime ∧
      stats.expireDt = (packageTiling terms).last callInfo.call.connectTime := by
  intro stats
  by_cases hperiodical : terms.servicePackage.periodical = true
  · have hstats : stats = _ := if_pos hperiodical
    have htiling : packageTiling terms = _ := if_pos hperiodical
    rw [hstats, htiling]
    refine ⟨rfl, rfl, ?_, ?_⟩
    · show (if getTmonth _ _ < _ then _ else _) = max (getTmonth _ _) _
      omega
    · show (if getTmonthEnd _ _ > _ then _ else _) = min (getTmonthEnd _ _) _
      omega
  · have hstats : stats = _ := if_neg hperiodical
    have htiling : packageTiling terms = _ := if_neg hperiodical
    rw [hstats, htiling]
    exact ⟨rfl, rfl, rfl, rfl⟩

/-- Windows of packages on the given terms. -/
def windows (terms : Int → PackageTerms) : LazyWindows StatsPackage PackageRequest where
  id := StatsPackage.id
  key := StatsPackage.packageId
  first := StatsPackage.activationDt
  last := StatsPackage.expireDt
  requestKey r := r.servicePackage.id
  time r := r.callInfo.call.connectTime
  create r := createStatsPackage r.callInfo r.account.timezoneOffset r.servicePackage
    r.tariffPackage
  tiling k := packageTiling (terms k)
  Fits := PackageRequest.Fits terms
  valid r h := by
    have hin := h.inForce
    rw [h.servicePackage] at hin
    rw [packageTiling]
    split
    · exact ⟨trivial, hin⟩
    · exact hin
  created r i h := by
    have hwindow := createStatsPackage_window r.callInfo (terms r.servicePackage.id) i
    rw [← h.servicePackage, ← h.tariffPackage, ← h.timezoneOffset] at hwindow
    exact hwindow

/-- A lookup with its request. -/
def ask (m : StatsPackageManager) (r : PackageRequest) : StatsPackage × StatsPackageManager :=
  m.getCurrent r.callInfo r.account r.servicePackage r.tariffPackage

/-! ## Granted seconds -/

theorem cround_le {x : ℚ} {n : Int} (h : x ≤ n) : cround x ≤ n := by
  rw [cround]
  split
  · apply Int.lt_add_one_iff.mp
    rw [Int.floor_lt]
    push_cast
    linarith
  · rw [Int.ceil_le]
    linarith

/-- The share of a month is not more than the whole. -/
theorem createStatsPackage_paid_le {r : PackageRequest}
    (hminutes : 0 ≤ r.tariffPackage.prepaidMinutes) (i : Int) :
    (createStatsPackage r.callInfo r.account.timezoneOffset r.servicePackage r.tariffPackage
      i).paidSeconds ≤ r.tariffPackage.getPrepaidSeconds := by
  have hseconds : (0 : ℚ) ≤ r.tariffPackage.getPrepaidSeconds := by
    rw [Int.cast_nonneg_iff, TariffPackage.getPrepaidSeconds]
    omega
  have hstart := getTmonth_le r.callInfo.call.connectTime r.account.timezoneOffset
  have hend := le_getTmonthEnd r.callInfo.call.connectTime r.account.timezoneOffset
  unfold createStatsPackage
  split
  case isTrue =>
    apply cround_le
    rw [div_le_iff₀ (by rw [Int.cast_pos]; omega), mul_comm]
    apply mul_le_mul_of_nonneg_left _ hseconds
    rw [Int.cast_le]
    split <;> split <;> omega
  case isFalse => exact le_rfl

end StatsPackageManager

/-- **Usage windows.**  For trunk settings whose accounts have fixed time offsets, and for
packages on fixed terms asked for in their validity, windows are unique; a periodical package
is not granted more than its prepaid seconds, if these are not negative. -/
theorem usage_windows_unique (offset : Int → Int) (terms : Int → PackageTerms) :
    WindowsUnique StatsTrunkSettings.id StatsTrunkSettings.trunkSettingsId
      StatsTrunkSettings.activationDt StatsTrunkSettings.expireDt
      (fun r : TrunkSettingsRequest => r.trunkSettings.id) TrunkSettingsRequest.connectTime
      (fun r => r.account.timezoneOffset = offset r.trunkSettings.id)
      StatsTrunkSettingsManager.ask ∧
    WindowsUnique StatsPackage.id StatsPackage.packageId StatsPackage.activationDt
      StatsPackage.expireDt (fun r : PackageRequest => r.servicePackage.id)
      (fun r => r.callInfo.call.connectTime) (PackageRequest.Fits terms)
      StatsPackageManager.ask ∧
    ∀ requests : List PackageRequest, (∀ r ∈ requests, r.Fits terms) →
      ∀ (i : Int) (stats : StatsPackage),
        (lookups StatsPackageManager.ask requests).rows[i]? = some stats →
        (terms stats.packageId).servicePackage.periodical = true →
        0 ≤ (terms stats.packageId).tariffPackage.prepaidMinutes →
        stats.paidSeconds ≤ (terms stats.packageId).tariffPackage.getPrepaidSeconds := by
  refine ⟨(StatsTrunkSettingsManager.windows offset).windowsUnique,
    (StatsPackageManager.windows terms).windowsUnique, ?_⟩
  intro requests hfits i stats hrow _ hminutes
  have hinv := (@LazyWindows.inv_run _ _ (StatsPackageManager.windows terms) _ requests
    LazyWindows.inv_empty hfits).1
  obtain ⟨r, hr, rfl⟩ := hinv.made i stats hrow
  have hkey := ((StatsPackageManager.windows terms).created r i hr).2.1
  change (StatsPackage.packageId _) = r.servicePackage.id at hkey
  rw [hkey, ← hr.tariffPackage] at hminutes ⊢
  exact StatsPackageManager.createStatsPackage_paid_le hminutes i

/-- A package of -10 minutes that is valid on the first day of a month. -/
def negativePackage : PackageRequest where
  callInfo := { call := { connectTime := 1000 } }
  account := {}
  servicePackage := { id := 11, activationDt := 0, expireDt := 86399, periodical := true }
  tariffPackage := { prepaidMinutes := -10 }

/-- One of 31 days is worth -19 seconds, more than all of the -600 prepaid seconds. -/
theorem paid_above_prepaid :
    negativePackage.Fits (fun _ =>
      ⟨negativePackage.servicePackage, negativePackage.tariffPackage, 0⟩) ∧
    (StatsPackageManager.ask UsageManager.empty negativePackage).1.paidSeconds = -19 ∧
    negativePackage.tariffPackage.getPrepaidSeconds = -600 ∧
    ¬ (StatsPackageManager.ask UsageManager.empty negativePackage).1.paidSeconds ≤
      negativePackage.tariffPackage.getPrepaidSeconds := by
  have hnone : (UsageManager.empty : StatsPackageManager).findCurrent 11
      (StatsPackageManager.isCurrent 1000) = none := by
    simp [UsageManager.findCurrent, UsageManager.empty]
  have hask : (StatsPackageManager.ask UsageManager.empty negativePackage).1 = _ :=
    congrArg Prod.fst (UsageManager.getCurrent_of_none hnone)
  have hpaid : (StatsPackageManager.ask UsageManager.empty negativePackage).1.paidSeconds = -19 := by
    rw [hask]
    decide +kernel
  refine ⟨⟨rfl, rfl, rfl, by decide, by decide⟩, hpaid, by decide, ?_⟩
  rw [hpaid]
  decide

end VoipBill
