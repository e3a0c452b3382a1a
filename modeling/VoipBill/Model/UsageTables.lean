import VoipBill.Lib.Significant
import VoipBill.Model.UsageManagers

/-!
# Stored usage counters

What the usage managers do with the tables of the database.  Saving writes the
rows of the first partition, with the times in their text form and the credit with
the six digits of a stream; `load` reads back the rows of the last sixty days;
`recalc` sums the stored calls up again for the rows that were in use at the last
stored call.

The four managers are again one design.  `UsageKind` holds what differs: the row,
its index, its window, the booking, and the columns of the queries.
-/

namespace VoipBill

open Lib

/-- `get_i`: `atoi` keeps the low 32 bits; NULL reads as 0. -/
def getI (value : Option Int) : Int :=
  match value with
  | none => 0
  | some n => n.bmod (2 ^ 32)

/-- What a counter row has counted. -/
structure UsageTotals where
  usedSeconds : Int := 0
  usedCredit : ℚ := 0
  minCallId : Int := 0
  maxCallId : Int := 0
deriving DecidableEq, Repr

/-- Count one more call. -/
def UsageTotals.add (totals : UsageTotals) (seconds : Int) (credit : ℚ) (callId : Int) :
    UsageTotals where
  usedSeconds := totals.usedSeconds + seconds
  usedCredit := totals.usedCredit + credit
  minCallId := if totals.minCallId = 0 then callId else totals.minCallId
  maxCallId := callId

/-- What the table gets: a stream writes six digits of the credit. -/
def UsageTotals.stored (totals : UsageTotals) : UsageTotals :=
  { totals with usedCredit := toSignificant streamDigits totals.usedCredit }

@[simp] theorem UsageTotals.stored_usedSeconds (totals : UsageTotals) :
    totals.stored.usedSeconds = totals.usedSeconds := rfl

@[simp] theorem UsageTotals.stored_usedCredit (totals : UsageTotals) :
    totals.stored.usedCredit = toSignificant streamDigits totals.usedCredit := rfl

@[simp] theorem UsageTotals.stored_minCallId (totals : UsageTotals) :
    totals.stored.minCallId = totals.minCallId := rfl

@[simp] theorem UsageTotals.stored_maxCallId (totals : UsageTotals) :
    totals.stored.maxCallId = totals.maxCallId := rfl

/-- A call as `calls_insert_row` writes it: a stream writes six digits of a `double`. -/
def Call.stored (call : Call) : Call :=
  { call with
    rate := toSignificant streamDigits call.rate
    cost := toSignificant streamDigits call.cost
    taxCost := toSignificant streamDigits call.taxCost
    interconnectRate := toSignificant streamDigits call.interconnectRate
    interconnectCost := toSignificant streamDigits call.interconnectCost
    packageCredit := toSignificant streamDigits call.packageCredit }

@[simp] theorem Call.stored_id (call : Call) : call.stored.id = call.id := rfl

/-- The aggregation of `recalc` over `calls_raw`.  `column` is the row a stored
call is grouped under; there is none if `calls_raw` has no such column. -/
structure RecalcQuery where
  column : Option (Call → Option Int)
  seconds : Call → Int
  credit : Call → ℚ

/-- A kind of usage counter. -/
structure UsageKind (ρ : Type) where
  Query : Type
  id : ρ → Int
  key : ρ → Int
  totals : ρ → UsageTotals
  withTotals : UsageTotals → ρ → ρ
  queryKey : Query → Int
  isCurrent : Query → ρ → Bool
  createStats : Query → Int → ρ
  bookedRow : CallInfo → Option Int
  seconds : Call → Int
  credit : Call → ℚ
  stored : ρ → ρ
  loadedBy : ρ → Int
  loadOrder : ρ → Int × Int
  recalcQuery : RecalcQuery
  id_withTotals : ∀ t r, id (withTotals t r) = id r
  key_withTotals : ∀ t r, key (withTotals t r) = key r
  totals_withTotals : ∀ t r, totals (withTotals t r) = t
  isCurrent_withTotals : ∀ q t r, isCurrent q (withTotals t r) = isCurrent q r
  id_stored : ∀ r, id (stored r) = id r
  key_stored : ∀ r, key (stored r) = key r
  totals_stored : ∀ r, totals (stored r) = (totals r).stored
  id_createStats : ∀ q i, id (createStats q i) = i
  key_createStats : ∀ q i, key (createStats q i) = queryKey q
  totals_createStats : ∀ q i, totals (createStats q i) = {}
  seconds_stored : ∀ call, recalcQuery.seconds call.stored = recalcQuery.seconds call
  credit_stored : ∀ call,
    recalcQuery.credit call.stored = toSignificant streamDigits (recalcQuery.credit call)
  column_stored : ∀ column, recalcQuery.column = some column →
    ∀ call, column call.stored = column call

namespace UsageKind

attribute [simp] id_withTotals key_withTotals totals_withTotals isCurrent_withTotals id_stored
  key_stored totals_stored id_createStats key_createStats totals_createStats seconds_stored
  credit_stored

variable {ρ : Type} (kind : UsageKind ρ)

/-! ## In memory -/

def getCurrent (m : UsageManager ρ) (q : kind.Query) : ρ × UsageManager ρ :=
  m.getCurrent (kind.queryKey q) (kind.isCurrent q) (kind.createStats q)

def update (call : Call) (stats : ρ) : ρ :=
  kind.withTotals ((kind.totals stats).add (kind.seconds call) (kind.credit call) call.id) stats

def add (m : UsageManager ρ) (callInfo : CallInfo) : UsageManager ρ :=
  m.addBooked (kind.bookedRow callInfo) (kind.update callInfo.call)

/-! ## Saving and loading -/

/-- The rows of a partition as the table gets them. -/
def storedPart (part : IntMap ρ) : IntMap ρ := part.map fun _ r => kind.stored r

/-- The first day that `load` asks for. -/
def filterFrom (lastSaveCallTime : Int) : Int :=
  if 0 < lastSaveCallTime then lastSaveCallTime - 86400 * 60 else lastSaveCallTime

def loads (lastSaveCallTime : Int) (row : ρ) : Bool :=
  stringTime (filterFrom lastSaveCallTime) ≤ kind.loadedBy row

/-- An answer to the query of `load`: the rows it selects, in its order. -/
def Answers (table : IntMap ρ) (lastSaveCallTime : Int) (res : List ρ) : Prop :=
  res.Perm ((table.toList.map Prod.snd).filter (kind.loads lastSaveCallTime)) ∧
    res.Pairwise fun a b => toLex (kind.loadOrder a) ≤ toLex (kind.loadOrder b)

instance [DecidableEq ρ] (table : IntMap ρ) (lastSaveCallTime : Int) (res : List ρ) :
    Decidable (kind.Answers table lastSaveCallTime res) :=
  inferInstanceAs (Decidable (_ ∧ _))

/-- One turn of the loop of `load`. -/
def loadRow (m : UsageManager ρ) (row : ρ) : UsageManager ρ :=
  { m with
    rows := m.rows.insert (kind.id row) row
    statsByKey := m.statsByKey.insert (kind.key row)
      (kind.id row :: m.statsByKey[kind.key row]?.getD []) }

/-- `select max(id)`, NULL for an empty table. -/
def maxId (table : IntMap ρ) : Int :=
  ((table.toList.map fun entry => kind.id entry.2).max?).getD 0

def load (table : IntMap ρ) (res : List ρ) : UsageManager ρ :=
  res.foldl kind.loadRow { UsageManager.empty with lastStatId := kind.maxId table }

/-! ## Recalculation -/

/-- The totals of the calls of one group; a group without calls has no row. -/
def sums (group : List Call) : Option UsageTotals :=
  if group = [] then
    none
  else
    let maxId := ((group.map Call.id).max?).getD 0
    some
      { usedSeconds := (group.map kind.recalcQuery.seconds).sum
        usedCredit := (group.map kind.recalcQuery.credit).sum
        -- the query selects `max(id) as min_call_id, max(id) as max_call_id`
        minCallId := maxId
        maxCallId := maxId }

/-- `delete … where min_call_id > storedLastId`. -/
def deleteLater (storedLastId : Int) (table : IntMap ρ) : IntMap ρ :=
  table.filter fun _ r => !decide (storedLastId < (kind.totals r).minCallId)

/-- The rows that were in use at the last stored call. -/
def inUse (storedLastId : Int) (row : ρ) : Bool := storedLastId ≤ (kind.totals row).maxCallId

/-- `select min(min_call_id) … where max_call_id >= storedLastId`, read as an `int`. -/
def minCallId (storedLastId : Int) (table : IntMap ρ) : Int :=
  getI ((((table.toList.map Prod.snd).filter (kind.inUse storedLastId)).map
    fun r => (kind.totals r).minCallId).min?)

def markRow (storedLastId : Int) (row : ρ) : ρ :=
  if kind.inUse storedLastId row then
    kind.withTotals { kind.totals row with minCallId := 0 } row
  else
    row

def resumRow (column : Call → Option Int) (calls : List Call) (storedLastId minCallId : Int)
    (row : ρ) : ρ :=
  if kind.inUse storedLastId row then
    match kind.sums (calls.filter fun call =>
        decide (minCallId ≤ call.id) && column call == some (kind.id row)) with
    | none => row
    | some totals => kind.withTotals totals row
  else
    row

/-- `delete … where min_call_id = 0`. -/
def deleteEmpty (table : IntMap ρ) : IntMap ρ :=
  table.filter fun _ r => (kind.totals r).minCallId != 0

/-- The two updates of the transaction. -/
def resum (column : Call → Option Int) (calls : List Call) (storedLastId : Int)
    (table : IntMap ρ) : IntMap ρ :=
  (table.map fun _ r => kind.markRow storedLastId r).map fun _ r =>
    kind.resumRow column calls storedLastId (kind.minCallId storedLastId table) r

/-- The second component tells whether `recalc` returns; otherwise it throws, and
what it did in its transaction is rolled back. -/
def recalc (calls : List Call) (storedLastId : Int) (table : IntMap ρ) : IntMap ρ × Bool :=
  let kept := kind.deleteLater storedLastId table
  if 0 < kind.minCallId storedLastId kept then
    match kind.recalcQuery.column with
    | none => (kept, false)
    | some column => (kind.deleteEmpty (kind.resum column calls storedLastId kept), true)
  else
    (kept, true)

end UsageKind

/-- A foreign key column of `calls_raw`, where 0 is stored as NULL. -/
def nullable (id : Int) : Option Int := if id = 0 then none else some id

/-! ## The four managers -/

namespace StatsFreeminManager

/-- The row a stored call is charged to. -/
def chargedRow (call : Call) : Option Int :=
  if call.servicePackageId = 1 then nullable call.servicePackageStatsId else none

def kind : UsageKind StatsFreemin where
  Query := CallInfo
  id := (·.id)
  key := (·.serviceNumberId)
  totals := fun r => ⟨r.usedSeconds, r.usedCredit, r.minCallId, r.maxCallId⟩
  withTotals := fun t r =>
    { r with
      usedSeconds := t.usedSeconds, usedCredit := t.usedCredit
      minCallId := t.minCallId, maxCallId := t.maxCallId }
  queryKey := fun callInfo => callInfo.call.numberServiceId
  isCurrent := fun callInfo stats => stats.monthDt == callInfo.dt.month
  createStats := createStatsFreemin
  bookedRow := bookedRow
  seconds := (·.packageTime)
  credit := (·.packageCredit)
  stored := fun r =>
    { r with
      monthDt := stringTime r.monthDt, usedCredit := toSignificant streamDigits r.usedCredit }
  loadedBy := (·.monthDt)
  loadOrder := fun r => (r.monthDt, 0)
  recalcQuery :=
    { column := some chargedRow
      seconds := (·.packageTime)
      credit := (·.packageCredit) }
  id_withTotals := fun _ _ => rfl
  key_withTotals := fun _ _ => rfl
  totals_withTotals := fun _ _ => rfl
  isCurrent_withTotals := fun _ _ _ => rfl
  id_stored := fun _ => rfl
  key_stored := fun _ => rfl
  totals_stored := fun _ => rfl
  id_createStats := fun _ _ => rfl
  key_createStats := fun _ _ => rfl
  totals_createStats := fun _ _ => rfl
  seconds_stored := fun _ => rfl
  credit_stored := fun _ => rfl
  column_stored := fun column hcolumn call => by
    rw [← Option.some.inj hcolumn]
    rfl

theorem getCurrent_eq_kind (m : StatsFreeminManager) (callInfo : CallInfo) :
    m.getCurrent callInfo = kind.getCurrent m callInfo := rfl

theorem add_eq_kind (m : StatsFreeminManager) (callInfo : CallInfo) :
    m.add callInfo = kind.add m callInfo := rfl

end StatsFreeminManager

namespace StatsPackageManager

/-- The row a stored call is charged to. -/
def chargedRow (call : Call) : Option Int :=
  if 1 < call.servicePackageId then nullable call.servicePackageStatsId else none

/-- What `getCurrent` is asked with. -/
structure Query where
  callInfo : CallInfo
  account : Client
  servicePackage : ServicePackage
  tariffPackage : TariffPackage

def kind : UsageKind StatsPackage where
  Query := Query
  id := (·.id)
  key := (·.packageId)
  totals := fun r => ⟨r.usedSeconds, r.usedCredit, r.minCallId, r.maxCallId⟩
  withTotals := fun t r =>
    { r with
      usedSeconds := t.usedSeconds, usedCredit := t.usedCredit
      minCallId := t.minCallId, maxCallId := t.maxCallId }
  queryKey := fun q => q.servicePackage.id
  isCurrent := fun q => isCurrent q.callInfo.call.connectTime
  createStats := fun q =>
    createStatsPackage q.callInfo q.account.timezoneOffset q.servicePackage q.tariffPackage
  bookedRow := bookedRow
  seconds := (·.packageTime)
  credit := (·.packageCredit)
  stored := fun r =>
    { r with
      activationDt := stringTime r.activationDt, expireDt := stringTime r.expireDt
      usedCredit := toSignificant streamDigits r.usedCredit }
  loadedBy := (·.activationDt)
  loadOrder := fun r => (r.packageId, r.activationDt)
  recalcQuery :=
    { column := some chargedRow
      seconds := (·.packageTime)
      credit := (·.packageCredit) }
  id_withTotals := fun _ _ => rfl
  key_withTotals := fun _ _ => rfl
  totals_withTotals := fun _ _ => rfl
  isCurrent_withTotals := fun _ _ _ => rfl
  id_stored := fun _ => rfl
  key_stored := fun _ => rfl
  totals_stored := fun _ => rfl
  id_createStats := fun q i => by
    simp only [createStatsPackage]
    split <;> rfl
  key_createStats := fun q i => by
    simp only [createStatsPackage]
    split <;> rfl
  totals_createStats := fun q i => by
    simp only [createStatsPackage]
    split <;> rfl
  seconds_stored := fun _ => rfl
  credit_stored := fun _ => rfl
  column_stored := fun column hcolumn call => by
    rw [← Option.some.inj hcolumn]
    rfl

theorem getCurrent_eq_kind (m : StatsPackageManager) (q : Query) :
    m.getCurrent q.callInfo q.account q.servicePackage q.tariffPackage = kind.getCurrent m q := rfl

theorem add_eq_kind (m : StatsPackageManager) (callInfo : CallInfo) :
    m.add callInfo = kind.add m callInfo := rfl

end StatsPackageManager

namespace StatsTrunkSettingsManager

/-- What `getCurrent` is asked with. -/
structure Query where
  connectTime : Int
  account : Client
  trunkSettings : ServiceTrunkSettings

def kind : UsageKind StatsTrunkSettings where
  Query := Query
  id := (·.id)
  key := (·.trunkSettingsId)
  totals := fun r => ⟨r.usedSeconds, r.usedCredit, r.minCallId, r.maxCallId⟩
  withTotals := fun t r =>
    { r with
      usedSeconds := t.usedSeconds, usedCredit := t.usedCredit
      minCallId := t.minCallId, maxCallId := t.maxCallId }
  queryKey := fun q => q.trunkSettings.id
  isCurrent := fun q => isCurrent q.connectTime
  createStats := fun q => createStatsTrunkSettings q.connectTime q.account q.trunkSettings
  bookedRow := bookedRow
  seconds := (·.billedTime)
  credit := (·.cost)
  stored := fun r =>
    { r with
      activationDt := stringTime r.activationDt, expireDt := stringTime r.expireDt
      usedCredit := toSignificant streamDigits r.usedCredit }
  loadedBy := (·.activationDt)
  loadOrder := fun r => (r.trunkSettingsId, r.activationDt)
  recalcQuery :=
    { column := some fun call => nullable call.trunkSettingsStatsId
      seconds := (·.billedTime)
      credit := (·.cost) }
  id_withTotals := fun _ _ => rfl
  key_withTotals := fun _ _ => rfl
  totals_withTotals := fun _ _ => rfl
  isCurrent_withTotals := fun _ _ _ => rfl
  id_stored := fun _ => rfl
  key_stored := fun _ => rfl
  totals_stored := fun _ => rfl
  id_createStats := fun _ _ => rfl
  key_createStats := fun _ _ => rfl
  totals_createStats := fun _ _ => rfl
  seconds_stored := fun _ => rfl
  credit_stored := fun _ => rfl
  column_stored := fun column hcolumn call => by
    rw [← Option.some.inj hcolumn]
    rfl

theorem getCurrent_eq_kind (m : StatsTrunkSettingsManager) (q : Query) :
    m.getCurrent q.connectTime q.account q.trunkSettings = kind.getCurrent m q := rfl

theorem add_eq_kind (m : StatsTrunkSettingsManager) (callInfo : CallInfo) :
    m.add callInfo = kind.add m callInfo := rfl

end StatsTrunkSettingsManager

namespace StatsNNPPackageMinuteManager

/-- What `getCurrent` is asked with. -/
structure Query where
  connectTime : Int
  nnpPackageMinute : NNPPackageMinute
  light : NNPAccountTariffLight

/-- The query of `recalc` groups by `stats_nnp_package_minute_orig_id`, a column
that `newpackages.lev2/03-nnp-calls_raw-add_col.sql` drops from `calls_raw`. -/
def kind : UsageKind StatsNNPPackageMinute where
  Query := Query
  id := (·.id)
  key := (·.nnpAccountTariffLightId)
  totals := fun r => ⟨r.usedSeconds, r.usedCredit, r.minCallId, r.maxCallId⟩
  withTotals := fun t r =>
    { r with
      usedSeconds := t.usedSeconds, usedCredit := t.usedCredit
      minCallId := t.minCallId, maxCallId := t.maxCallId }
  queryKey := fun q => q.light.id
  isCurrent := fun q => isCurrent q.connectTime
  createStats := fun q => createStatsNNPPackageMinute q.nnpPackageMinute q.light
  bookedRow := bookedRow
  seconds := (·.packageTime)
  credit := (·.cost)
  stored := fun r =>
    { r with
      activateFrom := stringTime r.activateFrom, deactivateFrom := stringTime r.deactivateFrom
      usedCredit := toSignificant streamDigits r.usedCredit }
  loadedBy := (·.activateFrom)
  loadOrder := fun r => (r.id, r.activateFrom)
  recalcQuery := { column := none, seconds := (·.billedTime), credit := (·.cost) }
  id_withTotals := fun _ _ => rfl
  key_withTotals := fun _ _ => rfl
  totals_withTotals := fun _ _ => rfl
  isCurrent_withTotals := fun _ _ _ => rfl
  id_stored := fun _ => rfl
  key_stored := fun _ => rfl
  totals_stored := fun _ => rfl
  id_createStats := fun _ _ => rfl
  key_createStats := fun _ _ => rfl
  totals_createStats := fun _ _ => rfl
  seconds_stored := fun _ => rfl
  credit_stored := fun _ => rfl
  column_stored := fun _ hcolumn => nomatch hcolumn

theorem getCurrent_eq_kind (m : StatsNNPPackageMinuteManager) (q : Query) :
    m.getCurrent q.connectTime q.nnpPackageMinute q.light = kind.getCurrent m q := rfl

theorem add_eq_kind (m : StatsNNPPackageMinuteManager) (callInfo : CallInfo) :
    m.add callInfo = kind.add m callInfo := rfl

end StatsNNPPackageMinuteManager

/-! ## Recalculation in the database -/

/-- The stored calls, as `calls_raw` holds them, and the tables of the four managers. -/
structure UsageDb where
  callsRaw : List Call
  statsFreemin : IntMap StatsFreemin
  statsPackage : IntMap StatsPackage
  statsTrunkSettings : IntMap StatsTrunkSettings
  statsNNPPackageMinute : IntMap StatsNNPPackageMinute

def StatsFreeminManager.recalc (db : UsageDb) (storedLastId : Int) : UsageDb × Bool :=
  let result := StatsFreeminManager.kind.recalc db.callsRaw storedLastId db.statsFreemin
  ({ db with statsFreemin := result.1 }, result.2)

def StatsPackageManager.recalc (db : UsageDb) (storedLastId : Int) : UsageDb × Bool :=
  let result := StatsPackageManager.kind.recalc db.callsRaw storedLastId db.statsPackage
  ({ db with statsPackage := result.1 }, result.2)

def StatsTrunkSettingsManager.recalc (db : UsageDb) (storedLastId : Int) : UsageDb × Bool :=
  let result := StatsTrunkSettingsManager.kind.recalc db.callsRaw storedLastId
    db.statsTrunkSettings
  ({ db with statsTrunkSettings := result.1 }, result.2)

/-- The query of this one groups by `stats_nnp_package_minute_orig_id`.  `origColumn` is
that column if `calls_raw` has it; with the tables as they are installed it is `none`.
Its last statement deletes from `stats_trunk_settings`. -/
def StatsNNPPackageMinuteManager.recalc (origColumn : Option (Call → Option Int)) (db : UsageDb)
    (storedLastId : Int) : UsageDb × Bool :=
  let kind := StatsNNPPackageMinuteManager.kind
  let kept := kind.deleteLater storedLastId db.statsNNPPackageMinute
  if 0 < kind.minCallId storedLastId kept then
    match origColumn with
    | none => ({ db with statsNNPPackageMinute := kept }, false)
    | some column =>
        ({ db with
          statsNNPPackageMinute := kind.resum column db.callsRaw storedLastId kept
          statsTrunkSettings :=
            StatsTrunkSettingsManager.kind.deleteEmpty db.statsTrunkSettings }, true)
  else
    ({ db with statsNNPPackageMinute := kept }, true)

end VoipBill
