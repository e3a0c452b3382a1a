import VoipBill.Model.LoadedLists

/-!
# The tariff change log over time

`load` lets an entry expire one second before the next one of its usage is activated.  So
the entries of a usage follow each other without a gap, and the last one is valid up to the
year 4000.

* `pairwise_load`: an entry expires before every later one of its usage is activated;
* `expireDt_cases`: it expires directly before one of them, or in the year 4000;
* `latest_tariff_found_iff`: the search finds the entry that was activated last.
-/

namespace VoipBill

open Lib.BinarySearch

/-- Order of the query: by usage and then by activation, one row for both. -/
def TariffChangeLogRow.Before (left right : TariffChangeLogRow) : Prop :=
  left.usageId < right.usageId ∨
    left.usageId = right.usageId ∧ left.dateActivation < right.dateActivation

theorem TariffChangeLogRow.Before.usageId_le {left right : TariffChangeLogRow}
    (h : left.Before right) : left.usageId ≤ right.usageId := by
  rcases h with hlt | ⟨heq, -⟩
  · exact le_of_lt hlt
  · exact le_of_eq heq

theorem TariffChangeLogRow.Before.dateActivation_lt {left right : TariffChangeLogRow}
    (h : left.Before right) (husage : left.usageId = right.usageId) :
    left.dateActivation < right.dateActivation := by
  rcases h with hlt | ⟨-, hlt⟩
  · exact absurd husage (ne_of_lt hlt)
  · exact hlt

namespace TariffChangeLogItem

/-- The row an entry was loaded from. -/
def row (item : TariffChangeLogItem) : TariffChangeLogRow where
  toTariffChangeLog := item.toTariffChangeLog
  usageId := item.usageId
  dateActivation := item.activationDate

def ValidAt (item : TariffChangeLogItem) (timestamp : Int) : Prop :=
  item.activationDate ≤ timestamp ∧ timestamp ≤ item.expireDt

end TariffChangeLogItem

namespace TariffChangeLogList

open TariffChangeLogItem

@[simp] theorem row_parseItem (row : TariffChangeLogRow) : (parseItem row).row = row := rfl

theorem row_setExpire (item : TariffChangeLogItem) (expireDt : Int) :
    { item with expireDt := expireDt }.row = item.row := rfl

/-- What `load` gets the expiry of an entry from. -/
def setExpiry (prevItem item : TariffChangeLogItem) : TariffChangeLogItem :=
  if prevItem.usageId = item.usageId then { prevItem with expireDt := item.activationDate - 1 }
  else prevItem

theorem row_setExpiry (prevItem item : TariffChangeLogItem) :
    (setExpiry prevItem item).row = prevItem.row := by
  unfold setExpiry
  split
  · rfl
  · rfl

theorem expiryLoop_cons (prevItem item : TariffChangeLogItem) (rest : List TariffChangeLogItem) :
    expiryLoop (some prevItem) (item :: rest) =
      setExpiry prevItem item :: expiryLoop (some { item with expireDt := maxTs }) rest := rfl

/-- Only the expiry of the entries changes. -/
theorem map_row_expiryLoop (prevItem : TariffChangeLogItem) (items : List TariffChangeLogItem) :
    (expiryLoop (some prevItem) items).map row = prevItem.row :: items.map row := by
  induction items generalizing prevItem with
  | nil => rfl
  | cons item rest ih =>
      rw [expiryLoop_cons, List.map_cons, ih, row_setExpiry, List.map_cons]
      rfl

theorem map_row_load (rows : List TariffChangeLogRow) : (load rows).map row = rows := by
  cases rows with
  | nil => rfl
  | cons first rows =>
      show (expiryLoop (some { parseItem first with expireDt := maxTs })
        (rows.map parseItem)).map row = _
      rw [map_row_expiryLoop, row_setExpire, row_parseItem, List.map_map]
      exact congrArg (first :: ·) (List.map_id rows)

/-- The entries are in the order of their rows. -/
theorem pairwise_row_load {rows : List TariffChangeLogRow}
    (hsorted : rows.Pairwise TariffChangeLogRow.Before) :
    (load rows).Pairwise fun left right => left.row.Before right.row := by
  rw [← List.pairwise_map, map_row_load]
  exact hsorted

/-! ## When an entry expires -/

/-- What the expiry of a list of entries is: before the activation of every later entry of
the usage, and directly before one of them or in the year 4000. -/
structure Expires (items : List TariffChangeLogItem) : Prop where
  before : items.Pairwise fun left right =>
    left.usageId = right.usageId → left.expireDt < right.activationDate
  cases : ∀ item ∈ items, item.expireDt = maxTs ∨ ∃ next ∈ items,
    next.usageId = item.usageId ∧ item.activationDate < next.activationDate ∧
      item.expireDt = next.activationDate - 1

theorem expires_expiryLoop {prevItem : TariffChangeLogItem} {items : List TariffChangeLogItem}
    (hexpire : prevItem.expireDt = maxTs)
    (hsorted : ((prevItem :: items).map row).Pairwise TariffChangeLogRow.Before) :
    Expires (expiryLoop (some prevItem) items) := by
  induction items generalizing prevItem with
  | nil =>
      refine ⟨List.pairwise_singleton _ _, fun item hmem => Or.inl ?_⟩
      rw [List.mem_singleton.mp hmem]
      exact hexpire
  | cons item rest ih =>
      rw [List.map_cons, List.pairwise_cons] at hsorted
      obtain ⟨hfirst, hrest⟩ := hsorted
      have hnext := @ih { item with expireDt := maxTs } rfl hrest
      have hrows := map_row_expiryLoop { item with expireDt := maxTs } rest
      have hitem : prevItem.row.Before item.row := hfirst _ (by simp)
      rw [expiryLoop_cons]
      refine ⟨List.pairwise_cons.mpr ⟨fun later hlater husage => ?_, hnext.before⟩,
        fun other hmem => ?_⟩
      · -- a later entry is the next one or comes after it
        have hrow : later.row ∈ item.row :: rest.map row := by
          rw [← row_setExpire item maxTs, ← hrows]
          exact List.mem_map_of_mem hlater
        have hge : item.row = later.row ∨ item.row.Before later.row := by
          rcases List.mem_cons.mp hrow with heq | hin
          · exact Or.inl heq.symm
          · exact Or.inr ((List.pairwise_cons.mp hrest).1 _ hin)
        have hprevUsage : prevItem.usageId = later.usageId := by
          rw [← husage]
          exact congrArg TariffChangeLogRow.usageId (row_setExpiry prevItem item).symm
        have hsame : prevItem.usageId = item.usageId := by
          have hle : prevItem.usageId ≤ item.usageId := hitem.usageId_le
          have hle' : item.usageId ≤ later.usageId := by
            rcases hge with heq | hbefore
            · exact le_of_eq (congrArg TariffChangeLogRow.usageId heq)
            · exact hbefore.usageId_le
          omega
        have hactivation : item.activationDate ≤ later.activationDate := by
          rcases hge with heq | hbefore
          · exact le_of_eq (congrArg TariffChangeLogRow.dateActivation heq)
          · exact le_of_lt (hbefore.dateActivation_lt (hsame.symm.trans hprevUsage))
        have hset : (setExpiry prevItem item).expireDt = item.activationDate - 1 := by
          rw [setExpiry, if_pos hsame]
        omega
      · -- the first entry ends before the next one of its usage, or never
        rcases List.mem_cons.mp hmem with rfl | hin
        · by_cases hsame : prevItem.usageId = item.usageId
          · right
            have hhead : item.row ∈
                (expiryLoop (some { item with expireDt := maxTs }) rest).map row := by
              rw [hrows]
              exact List.mem_cons_self
            obtain ⟨next, hmemNext, hrowNext⟩ := List.mem_map.mp hhead
            have husage : next.usageId = item.usageId :=
              congrArg TariffChangeLogRow.usageId hrowNext
            have hactivation : next.activationDate = item.activationDate :=
              congrArg TariffChangeLogRow.dateActivation hrowNext
            have hlt : prevItem.activationDate < item.activationDate :=
              hitem.dateActivation_lt hsame
            refine ⟨next, List.mem_cons_of_mem _ hmemNext, ?_⟩
            rw [setExpiry, if_pos hsame, husage, hactivation]
            exact ⟨hsame.symm, hlt, rfl⟩
          · left
            rw [setExpiry, if_neg hsame]
            exact hexpire
        · rcases hnext.cases other hin with hmax | ⟨next, hmemNext, hnextOf⟩
          · exact Or.inl hmax
          · exact Or.inr ⟨next, List.mem_cons_of_mem _ hmemNext, hnextOf⟩

theorem expires_load {rows : List TariffChangeLogRow}
    (hsorted : rows.Pairwise TariffChangeLogRow.Before) : Expires (load rows) := by
  cases rows with
  | nil => exact ⟨List.Pairwise.nil, fun item hmem => absurd hmem (by simp [load, expiryLoop])⟩
  | cons first rows =>
      refine expires_expiryLoop rfl ?_
      rw [List.map_cons, row_setExpire, row_parseItem, List.map_map]
      have hid : rows.map (row ∘ parseItem) = rows := List.map_id rows
      rw [hid]
      exact hsorted

/-! ## The search -/

section Search

variable {rows : List TariffChangeLogRow} {usageId timestamp : Int}

/-- Expiries ascend with the activations, as far as the year 4000. -/
theorem pairwise_expireDt (hexpires : Expires (load rows))
    (htime : timestamp ≤ maxTs) :
    (load rows).Pairwise fun left right => left.usageId = right.usageId →
      right.expireDt < timestamp → left.expireDt < timestamp := by
  refine (List.Pairwise.and_mem.mp hexpires.before).imp fun {left right} h husage hexpired => ?_
  obtain ⟨-, hmem, hlt⟩ := h
  have hbefore := hlt husage
  rcases hexpires.cases right hmem with hmax | ⟨next, -, -, hactivation, hexpire⟩
  · omega
  · omega

/-- The searches select the entries of the usage that are valid at the time. -/
theorem selects_find (hsorted : rows.Pairwise TariffChangeLogRow.Before)
    (htime : timestamp ≤ maxTs) :
    ∃ range, find (load rows) usageId timestamp = front (load rows) range ∧
      Selects (load rows) range fun item => item.usageId = usageId ∧ item.ValidAt timestamp := by
  have horder := pairwise_row_load hsorted
  have hexpires := expires_load hsorted
  let byUsage := equalRange (fun left : TariffChangeLogItem => decide (left.usageId < usageId))
    (fun right => decide (usageId < right.usageId)) (load rows) (0, (load rows).length)
  have husage : Selects (load rows) byUsage fun item => True ∧ item.usageId = usageId :=
    (selects_all _).narrowKey (fun _ => decide_eq_true_iff) (fun _ => decide_eq_true_iff)
      (horder.imp fun hbefore _ _ => hbefore.usageId_le)
  -- the entries of the usage are in the order of their times
  have htimes : Selects (load rows)
      (equalRange (fun left => decide (left.expireDt < timestamp))
        (fun right => decide (timestamp < right.activationDate)) (load rows) byUsage)
      fun item => (True ∧ item.usageId = usageId) ∧
        item.activationDate ≤ timestamp ∧ timestamp ≤ item.expireDt :=
    husage.narrowInterval (fun _ => decide_eq_true_iff) (fun _ => decide_eq_true_iff)
      ((pairwise_expireDt hexpires htime).imp fun himp hleft hright =>
        himp (hleft.2.trans hright.2.symm))
      (horder.imp fun hbefore hleft hright =>
        le_of_lt (hbefore.dateActivation_lt (hleft.2.trans hright.2.symm)))
  exact ⟨_, rfl, htimes.congr fun item => by simp [ValidAt]⟩

/-- An entry expires before whatever is activated later. -/
theorem expireDt_lt (hsorted : rows.Pairwise TariffChangeLogRow.Before)
    {item other : TariffChangeLogItem} (hmem : item ∈ load rows) (hother : other ∈ load rows)
    (husage : item.usageId = other.usageId) (hlater : item.activationDate < other.activationDate) :
    item.expireDt < other.activationDate := by
  have hearlier := (expires_load hsorted).before.imp fun {left right} hlt
      (husage : left.usageId = right.usageId) (_ : left.activationDate < right.activationDate) =>
    hlt husage
  have hnotLater : (load rows).Pairwise fun left right => right.usageId = left.usageId →
      right.activationDate < left.activationDate → right.expireDt < left.activationDate :=
    (pairwise_row_load hsorted).imp fun hbefore hsame hlt =>
      absurd (hbefore.dateActivation_lt hsame.symm) (not_lt_of_gt hlt)
  exact List.Pairwise.forall_of_forall_of_flip (fun _ _ _ hlt => absurd hlt (lt_irrefl _))
    hearlier hnotLater hmem hother husage hlater

/-- Two entries of a usage are never valid at the same time. -/
theorem pairwise_not_validAt (hexpires : Expires (load rows)) :
    (load rows).Pairwise fun left right => left.usageId = right.usageId →
      ∀ t, ¬ (left.ValidAt t ∧ right.ValidAt t) := by
  refine hexpires.before.imp fun hbefore husage t hboth => ?_
  have hlt := hbefore husage
  have hfrom := hboth.2.1
  have hto := hboth.1.2
  omega

/-- The entry of a usage that was activated last. -/
def IsLatest (data : List TariffChangeLogItem) (usageId timestamp : Int)
    (item : TariffChangeLogItem) : Prop :=
  item ∈ data ∧ item.usageId = usageId ∧ item.activationDate ≤ timestamp ∧
    ∀ other ∈ data, other.usageId = usageId → other.activationDate ≤ timestamp →
      other.activationDate ≤ item.activationDate

/-- What is activated later than a valid entry is activated after the time. -/
theorem isLatest_iff (hsorted : rows.Pairwise TariffChangeLogRow.Before)
    (htime : timestamp ≤ maxTs) (item : TariffChangeLogItem) :
    IsLatest (load rows) usageId timestamp item ↔
      item ∈ load rows ∧ item.usageId = usageId ∧ item.ValidAt timestamp := by
  have hexpires := expires_load hsorted
  constructor
  · rintro ⟨hmem, husage, hfrom, hlatest⟩
    refine ⟨hmem, husage, hfrom, ?_⟩
    rcases hexpires.cases item hmem with hmax | ⟨next, hnext, hnextUsage, hlt, hexpire⟩
    · omega
    · -- the next entry would be a later one of the usage
      by_contra hlate
      have hle := hlatest next hnext (hnextUsage.trans husage) (by omega)
      omega
  · rintro ⟨hmem, husage, hfrom, hto⟩
    refine ⟨hmem, husage, hfrom, fun other hother hotherUsage hotherFrom => ?_⟩
    by_contra hlater
    have hlt := expireDt_lt hsorted hmem hother (husage.trans hotherUsage.symm) (by omega)
    omega

/-- An entry is determined by its usage and its activation. -/
theorem eq_of_activationDate (hsorted : rows.Pairwise TariffChangeLogRow.Before)
    {item other : TariffChangeLogItem} (hmem : item ∈ load rows) (hother : other ∈ load rows)
    (husage : item.usageId = other.usageId) (hsame : item.activationDate = other.activationDate) :
    item = other := by
  have hdistinct : (load rows).Pairwise fun left right =>
      left.usageId = right.usageId → left.activationDate = right.activationDate →
        left = right :=
    (pairwise_row_load hsorted).imp fun hbefore husage hsame =>
      absurd hsame (ne_of_lt (hbefore.dateActivation_lt husage))
  have hflip : (load rows).Pairwise fun left right =>
      right.usageId = left.usageId → right.activationDate = left.activationDate →
        right = left :=
    (pairwise_row_load hsorted).imp fun hbefore husage hsame =>
      absurd hsame.symm (ne_of_lt (hbefore.dateActivation_lt husage.symm))
  exact List.Pairwise.forall_of_forall_of_flip (fun _ _ _ _ => rfl) hdistinct hflip hmem hother
    husage hsame

/-- Among the entries of a usage that are activated there is a last one. -/
theorem exists_isLatest {data : List TariffChangeLogItem} {item : TariffChangeLogItem}
    (hmem : item ∈ data) (husage : item.usageId = usageId)
    (hfrom : item.activationDate ≤ timestamp) :
    ∃ latest, IsLatest data usageId timestamp latest := by
  let activated := data.toFinset.filter fun other =>
    other.usageId = usageId ∧ other.activationDate ≤ timestamp
  have hmemActivated : ∀ other, other ∈ activated ↔
      other ∈ data ∧ other.usageId = usageId ∧ other.activationDate ≤ timestamp := fun other => by
    rw [Finset.mem_filter, List.mem_toFinset]
  obtain ⟨latest, hlatest, hmax⟩ := Finset.exists_max_image activated
    TariffChangeLogItem.activationDate ⟨item, (hmemActivated item).mpr ⟨hmem, husage, hfrom⟩⟩
  obtain ⟨hin, hof, hbefore⟩ := (hmemActivated latest).mp hlatest
  exact ⟨latest, hin, hof, hbefore, fun other hother hotherUsage hotherFrom =>
    hmax other ((hmemActivated other).mpr ⟨hother, hotherUsage, hotherFrom⟩)⟩

/-- There is at most one last entry. -/
theorem IsLatest.unique (hsorted : rows.Pairwise TariffChangeLogRow.Before)
    {item other : TariffChangeLogItem} (h : IsLatest (load rows) usageId timestamp item)
    (h' : IsLatest (load rows) usageId timestamp other) : item = other := by
  obtain ⟨hmem, husage, hfrom, hlatest⟩ := h
  obtain ⟨hmem', husage', hfrom', hlatest'⟩ := h'
  have hle := hlatest other hmem' husage' hfrom'
  have hge := hlatest' item hmem husage hfrom
  exact eq_of_activationDate hsorted hmem hmem' (husage.trans husage'.symm) (by omega)

/-- **The tariff change log partitions time** up to the year 4000: the search finds the entry
of the usage that was activated last, nothing exactly before the first one, and never are two
entries of a usage valid at once. -/
theorem latest_tariff_found_iff (rows : List TariffChangeLogRow)
    (hsorted : rows.Pairwise TariffChangeLogRow.Before) (usageId timestamp : Int)
    (htime : timestamp ≤ maxTs) :
    (∀ item, find (load rows) usageId timestamp = some item ↔
      IsLatest (load rows) usageId timestamp item) ∧
    (find (load rows) usageId timestamp = none ↔
      ∀ item ∈ load rows, item.usageId = usageId → timestamp < item.activationDate) ∧
    (load rows).Pairwise fun left right => left.usageId = right.usageId →
      ∀ t, ¬ (left.ValidAt t ∧ right.ValidAt t) := by
  obtain ⟨range, hfind, hselects⟩ := @selects_find rows usageId timestamp hsorted htime
  have hsome : ∀ item, find (load rows) usageId timestamp = some item →
      IsLatest (load rows) usageId timestamp item := fun item hfound =>
    (isLatest_iff hsorted htime item).mpr (hselects.of_front (hfind ▸ hfound))
  have hnone : find (load rows) usageId timestamp = none ↔
      ∀ item, ¬ IsLatest (load rows) usageId timestamp item := by
    rw [hfind, hselects.front_eq_none_iff]
    refine forall_congr' fun item => ?_
    rw [isLatest_iff hsorted htime item]
    exact not_and.symm
  refine ⟨fun item => ⟨hsome item, fun hlatest => ?_⟩, hnone.trans ⟨fun h item hmem husage => ?_,
    fun h item hlatest => ?_⟩, pairwise_not_validAt (expires_load hsorted)⟩
  · cases hfound : find (load rows) usageId timestamp with
    | none => exact absurd hlatest (hnone.mp hfound item)
    | some found => rw [(hsome found hfound).unique hsorted hlatest]
  · by_contra hbefore
    obtain ⟨latest, hlatest⟩ := exists_isLatest hmem husage (not_lt.mp hbefore)
    exact h latest hlatest
  · obtain ⟨hmem, husage, hfrom, -⟩ := hlatest
    have hlt := h item hmem husage
    omega

/-- Usage 7 changes its tariff twice, usage 9 has one entry. -/
def twoUsages : List TariffChangeLogRow :=
  [{ usageId := 7, dateActivation := 100, tariffIdLocal := 1 },
   { usageId := 7, dateActivation := 200, tariffIdLocal := 2 },
   { usageId := 9, dateActivation := 150, tariffIdLocal := 3 }]

theorem latest_tariff_found_iff_twoUsages :
    (find (load twoUsages) 7 199).map (·.tariffIdLocal) = some 1 ∧
      (∀ item, find (load twoUsages) 7 199 = some item ↔
        IsLatest (load twoUsages) 7 199 item) ∧
      find (load twoUsages) 9 149 = none := by
  have hsorted : twoUsages.Pairwise TariffChangeLogRow.Before := by
    unfold TariffChangeLogRow.Before
    decide
  exact ⟨by decide +kernel, (latest_tariff_found_iff twoUsages hsorted 7 199 (by decide)).1, by decide +kernel⟩

end Search

end TariffChangeLogList
end VoipBill
