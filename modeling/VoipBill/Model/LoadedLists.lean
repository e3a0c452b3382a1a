import Mathlib.Data.Char
import Mathlib.Data.List.Lex
import VoipBill.Lib.BinarySearch
import VoipBill.Model.Repository

/-!
# Lists that are searched after loading

The lists of prices, of tariff changes and of connected version 5 tariffs as `load` fills
them from their tables, and the searches that `DataContainer` stands for.

* `PricelistPriceList`: three searches, by price list, prefix and time, for every prefix of a
  number from the longest on;
* `TariffChangeLogList`: `load` computes when an entry expires, and two searches find it;
* `NNPAccountTariffLightList`: the dates of a row are read with `atoi`.
-/

namespace VoipBill

open Lib.BinarySearch

/-- A number as text: `%lld`, and the text of a number column. -/
def decimal (n : Int) : List Char :=
  if n < 0 then '-' :: Nat.toDigits 10 n.natAbs else Nat.toDigits 10 n.natAbs

/-- 4000-01-01. -/
def maxTs : Int := 64060588800

/-! ## Prices -/

/-- A row of `billing.defs`; dates are their first seconds. -/
structure DefsRow where
  pricelistId : Int := 0
  ndef : Int := 0
  price : ℚ := 0
  dateFrom : Int := 0
  dateTo : Int := 0

structure PricelistPriceItem extends PricelistPrice where
  pricelistId : Int := 0
  dateFrom : Int := 0
  dateTo : Int := 0
deriving DecidableEq, Repr

namespace PricelistPriceList

/-- The price is valid up to the last second of its last day. -/
def parseItem (row : DefsRow) : PricelistPriceItem where
  pricePrefix := decimal row.ndef
  price := row.price
  pricelistId := row.pricelistId
  dateFrom := row.dateFrom
  dateTo := row.dateTo + 86399

def load (rows : List DefsRow) : List PricelistPriceItem := rows.map parseItem

section Find

variable (data : List PricelistPriceItem) (pricelistId : Int)

/-- `_find`. -/
def findByPrefix (start : List Char) (timestamp : Int) : Option PricelistPriceItem :=
  let range := equalRange (fun left => decide (left.pricelistId < pricelistId))
    (fun right => decide (pricelistId < right.pricelistId)) data (0, data.length)
  let range :=
    if start ≠ [] then
      equalRange (fun left => decide (left.pricePrefix < start))
        (fun right => decide (start < right.pricePrefix)) data range
    else range
  let range := equalRange (fun left => decide (left.dateTo < timestamp))
    (fun right => decide (timestamp < right.dateFrom)) data range
  front data range

/-- The loop of `find`: the text is cut to `len` characters, and to fewer if no price is
found. -/
def findLoop (tmpPrefix : List Char) (timestamp : Int) : Nat → Option PricelistPriceItem
  | 0 => none
  | len + 1 =>
      match findByPrefix data pricelistId (tmpPrefix.take (len + 1)) timestamp with
      | some result => some result
      | none => findLoop tmpPrefix timestamp len

def find (number timestamp : Int) : Option PricelistPriceItem :=
  findLoop data pricelistId (decimal number) timestamp (decimal number).length

end Find

end PricelistPriceList

/-! ## Tariff changes -/

/-- A row that the query of the tariff change log selects. -/
structure TariffChangeLogRow extends TariffChangeLog where
  usageId : Int := 0
  dateActivation : Int := 0

structure TariffChangeLogItem extends TariffChangeLog where
  usageId : Int := 0
  activationDate : Int := 0
  expireDt : Int := 0
deriving DecidableEq, Repr

namespace TariffChangeLogList

def parseItem (row : TariffChangeLogRow) : TariffChangeLogItem where
  toTariffChangeLog := row.toTariffChangeLog
  usageId := row.usageId
  activationDate := row.dateActivation

/-- The loop of `load`; the expiry of `prevItem` is final once the next item is seen. -/
def expiryLoop : Option TariffChangeLogItem → List TariffChangeLogItem → List TariffChangeLogItem
  | none, [] => []
  | some prevItem, [] => [prevItem]
  | none, item :: rest => expiryLoop (some { item with expireDt := maxTs }) rest
  | some prevItem, item :: rest =>
      (if prevItem.usageId = item.usageId then
        { prevItem with expireDt := item.activationDate - 1 }
      else prevItem) :: expiryLoop (some { item with expireDt := maxTs }) rest

def load (rows : List TariffChangeLogRow) : List TariffChangeLogItem :=
  expiryLoop none (rows.map parseItem)

def find (data : List TariffChangeLogItem) (usageId timestamp : Int) :
    Option TariffChangeLogItem :=
  let range := equalRange (fun left => decide (left.usageId < usageId))
    (fun right => decide (usageId < right.usageId)) data (0, data.length)
  let range := equalRange (fun left => decide (left.expireDt < timestamp))
    (fun right => decide (timestamp < right.activationDate)) data range
  front data range

end TariffChangeLogList

/-! ## Connected version 5 tariffs -/

/-- A row of `nnp.account_tariff_light`; the two dates are given by `extract(epoch …)`. -/
structure AccountTariffLightRow where
  id : Int := 0
  accountTariffId : Int := 0
  accountClientId : Int := 0
  tariffId : Int := 0
  activateFrom : ℚ := 0
  deactivateFrom : ℚ := 0
  coefficient : ℚ := 0
  price : ℚ := 0
  serviceTypeId : Int := 0
deriving DecidableEq

/-- The table in the order of its primary key. -/
structure AccountTariffLightTable where
  rows : List AccountTariffLightRow
  sorted : rows.Pairwise fun left right => left.id < right.id

/-- `atoi` on the text of a number: what follows the point is not read, and a number that
is too large for an `int` keeps its last 32 bits. -/
def atoi (x : ℚ) : Int := (if 0 ≤ x then ⌊x⌋ else ⌈x⌉).bmod (2 ^ 32)

namespace NNPAccountTariffLightList

def accountTariffLightServiceTypeSimpleNumber : Int := 3

def parseItem (row : AccountTariffLightRow) : NNPAccountTariffLight where
  id := row.id
  accountClientId := row.accountClientId
  nnpTariffId := row.tariffId
  activateFrom := atoi row.activateFrom
  deactivateFrom := atoi row.deactivateFrom
  coefficient := row.coefficient
  price := row.price
  serviceTypeId := row.serviceTypeId
  serviceNumberId :=
    if row.serviceTypeId = accountTariffLightServiceTypeSimpleNumber then row.accountTariffId
    else 0
  serviceTrunkId :=
    if row.serviceTypeId = accountTariffLightServiceTypeSimpleNumber then 0
    else row.accountTariffId

def load (table : AccountTariffLightTable) : NNPAccountTariffLightList where
  data := table.rows.map parseItem
  nodup_id := by
    rw [List.map_map]
    exact (List.pairwise_map.mpr table.sorted).imp ne_of_lt

end NNPAccountTariffLightList

end VoipBill
