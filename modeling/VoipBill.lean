import VoipBill.Auth.AnalyzeCall
import VoipBill.Auth.AutoRouting
import VoipBill.Auth.LimitControl
import VoipBill.Auth.MegaTrunkHops
import VoipBill.Auth.RadiusAnswers
import VoipBill.Auth.RadiusRequest
import VoipBill.Auth.RouteAnswers
import VoipBill.Auth.RouteTable
import VoipBill.Billing.AccountDays
import VoipBill.Billing.BilledLength
import VoipBill.Billing.Calc
import VoipBill.Billing.ChargeBalance
import VoipBill.Billing.ChargeFrame
import VoipBill.Billing.Clock
import VoipBill.Billing.CounterLookup
import VoipBill.Billing.CurrentCalls
import VoipBill.Billing.FailedCalls
import VoipBill.Billing.Freemin
import VoipBill.Billing.LegFindings
import VoipBill.Billing.LegFrame
import VoipBill.Billing.MinuteOffer
import VoipBill.Billing.MissingObjects
import VoipBill.Billing.NNPCountry
import VoipBill.Billing.NNPMinutes
import VoipBill.Billing.NNPRate
import VoipBill.Billing.PackagePrepaid
import VoipBill.Billing.PricingFrame
import VoipBill.Billing.PricingRun
import VoipBill.Billing.Recalc
import VoipBill.Billing.RecalcHistory
import VoipBill.Billing.Steady
import VoipBill.Billing.StoredHistory
import VoipBill.Billing.TermOrder
import VoipBill.Billing.TrunkOrders
import VoipBill.Billing.UsageBooks
import VoipBill.Billing.UsageStore
import VoipBill.Billing.UsageWindows
import VoipBill.Billing.VatFlag
import VoipBill.Common.HtmlTags
import VoipBill.Common.TimeText
import VoipBill.Lib.BatchCopy
import VoipBill.Lib.BinarySearch
import VoipBill.Lib.Brackets
import VoipBill.Lib.Calendar
import VoipBill.Lib.ChangeSet
import VoipBill.Lib.Digits
import VoipBill.Lib.Hoare
import VoipBill.Lib.IntMap
import VoipBill.Lib.KeyedSearch
import VoipBill.Lib.LatestBucket
import VoipBill.Lib.Months
import VoipBill.Lib.PrefixCover
import VoipBill.Lib.Reachability
import VoipBill.Lib.Refresh
import VoipBill.Lib.Relational
import VoipBill.Lib.Run
import VoipBill.Lib.Scan
import VoipBill.Lib.Session
import VoipBill.Lib.Significant
import VoipBill.Lib.Sorting
import VoipBill.Lib.StampedCopy
import VoipBill.Lib.Text
import VoipBill.Lib.Tiling
import VoipBill.Lib.WriteBehind
import VoipBill.Lists.NNPAccountTariffLightList
import VoipBill.Lists.PricelistPriceList
import VoipBill.Lists.TableScans
import VoipBill.Lists.TariffChangeLogList
import VoipBill.Model.BDb
import VoipBill.Model.BillingCall
import VoipBill.Model.CallsManager
import VoipBill.Model.ClientLockCounter
import VoipBill.Model.Common
import VoipBill.Model.DataBillingContainer
import VoipBill.Model.LoadedLists
import VoipBill.Model.LoadedTables
import VoipBill.Model.NNPCountryCodeList
import VoipBill.Model.NNPNumberRangeList
import VoipBill.Model.PrefixTree
import VoipBill.Model.RadiusAuthProcessor
import VoipBill.Model.Records
import VoipBill.Model.Repository
import VoipBill.Model.StateMegaTrunk
import VoipBill.Model.StatsAccountManager
import VoipBill.Model.UsageManagers
import VoipBill.Model.UsageTables
import VoipBill.NNP.CanonicalCover
import VoipBill.NNP.ForwardReverse
import VoipBill.NNP.PrefixBlocks
import VoipBill.NNP.PrefixSets
import VoipBill.NNP.RangeLoad
import VoipBill.NNP.RangeLookup
import VoipBill.NNP.RangeTree
import VoipBill.NNP.SetDifference
import VoipBill.Parser.CdrParser
import VoipBill.Parser.FileOrder
import VoipBill.Parser.RecordCut
import VoipBill.Parser.RecordsSaved
import VoipBill.Parser.ThreadCdrParser
import VoipBill.Save.AccountRow
import VoipBill.Save.CallQueue
import VoipBill.Save.CommittedCounters
import VoipBill.Save.ConnectionLoss
import VoipBill.Save.CrashRecovery
import VoipBill.Save.ReloadSum
import VoipBill.Save.SaveThread
import VoipBill.Sync.AccountCounters
import VoipBill.Sync.BasePull
import VoipBill.Sync.BlackLists
import VoipBill.Sync.CentralCopies
import VoipBill.Sync.ClientLocks
import VoipBill.Sync.ManagerPull
import VoipBill.Sync.PullLoop
import VoipBill.Sync.TableCopies
import VoipBill.Sync.ThreadLoader
import VoipBill.Sync.UsageCounters
import VoipBill.Sync.WantedLists
