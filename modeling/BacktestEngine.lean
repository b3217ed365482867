import BacktestEngine.Bars.BarStore
import BacktestEngine.Bars.OhlcBuilder
import BacktestEngine.Bars.RangeBarBuilder
import BacktestEngine.Bars.RangeHistory
import BacktestEngine.Bars.RangeSemantics
import BacktestEngine.Bars.Sharing
import BacktestEngine.Bars.TickBlocks
import BacktestEngine.Bars.TimeBars
import BacktestEngine.Execution.TickCache
import BacktestEngine.Execution.WindowServing
import BacktestEngine.Experiments.Bookkeeping
import BacktestEngine.Experiments.ChainMatcher
import BacktestEngine.Experiments.Evaluation
import BacktestEngine.Experiments.MatchSemantics
import BacktestEngine.Ingest.IngestCommand
import BacktestEngine.Ingest.QuestdbIngestClient
import BacktestEngine.Ingest.TickPacket
import BacktestEngine.Library.Binary64
import BacktestEngine.Library.Binary64Arithmetic
import BacktestEngine.Library.Binary64Bits
import BacktestEngine.Library.Blocks
import BacktestEngine.Library.BoundedTail
import BacktestEngine.Library.Checked
import BacktestEngine.Library.CivilDate
import BacktestEngine.Library.ConditionVariable
import BacktestEngine.Library.Drawdown
import BacktestEngine.Library.DropOldest
import BacktestEngine.Library.Endings
import BacktestEngine.Library.Expiring
import BacktestEngine.Library.Fields
import BacktestEngine.Library.FixedPoint
import BacktestEngine.Library.FlatObject
import BacktestEngine.Library.Greedy
import BacktestEngine.Library.Grid
import BacktestEngine.Library.History
import BacktestEngine.Library.Inevitable
import BacktestEngine.Library.Keyed
import BacktestEngine.Library.Lease
import BacktestEngine.Library.MonotoneDeque
import BacktestEngine.Library.OrderStatistic
import BacktestEngine.Library.Program
import BacktestEngine.Library.Registry
import BacktestEngine.Library.SortedMap
import BacktestEngine.Library.Tally
import BacktestEngine.Library.Transition
import BacktestEngine.Library.Window
import BacktestEngine.Library.WireFields
import BacktestEngine.Live.Book
import BacktestEngine.Live.BookConsistency
import BacktestEngine.Live.BrokerOrders
import BacktestEngine.Live.BrokerRequests
import BacktestEngine.Live.CloseOutcome
import BacktestEngine.Live.ClosePruning
import BacktestEngine.Live.ClusterAgreement
import BacktestEngine.Live.ClusterCapacity
import BacktestEngine.Live.ClusterCheck
import BacktestEngine.Live.ClusterRebuild
import BacktestEngine.Live.ClusterSwap
import BacktestEngine.Live.ClusterTable
import BacktestEngine.Live.DealReferences
import BacktestEngine.Live.EarlyReentry
import BacktestEngine.Live.LateTicks
import BacktestEngine.Live.OpenPlacement
import BacktestEngine.Live.OpenTradeCap
import BacktestEngine.Live.OrderChannel
import BacktestEngine.Live.PlacementExclusion
import BacktestEngine.Live.PositionCounter
import BacktestEngine.Live.PositionWire
import BacktestEngine.Live.RateBudget
import BacktestEngine.Live.RequestBudget
import BacktestEngine.Live.RequestClient
import BacktestEngine.Live.SignalParity
import BacktestEngine.Live.StrategyRunner
import BacktestEngine.Live.TickQueues
import BacktestEngine.Live.TradeLocks
import BacktestEngine.Live.WholeRebuild
import BacktestEngine.Live.WinnerSelection
import BacktestEngine.Live.Winners
import BacktestEngine.Load.LoadCommand
import BacktestEngine.Load.RedisLoader
import BacktestEngine.Load.StrategyConfigs
import BacktestEngine.Load.Sweep
import BacktestEngine.Load.SymbolGroups
import BacktestEngine.Load.Timestamps
import BacktestEngine.Models.Bars
import BacktestEngine.Models.Base64
import BacktestEngine.Models.Base64Memory
import BacktestEngine.Models.Json
import BacktestEngine.Models.MarketHours
import BacktestEngine.Models.PeakHours
import BacktestEngine.Net.SyncRedisClient
import BacktestEngine.Net.UdpReceiver
import BacktestEngine.Positions.Attribution
import BacktestEngine.Positions.BookCalls
import BacktestEngine.Positions.BookHistory
import BacktestEngine.Positions.BookSemantics
import BacktestEngine.Positions.CreatedDates
import BacktestEngine.Positions.ListUpdates
import BacktestEngine.Positions.Removals
import BacktestEngine.Positions.Resurrection
import BacktestEngine.Positions.Store
import BacktestEngine.Positions.Sync
import BacktestEngine.Queue.Configuration
import BacktestEngine.Queue.DrainLoss
import BacktestEngine.Queue.Ladder
import BacktestEngine.Queue.PoolRuns
import BacktestEngine.Queue.RollingWindow
import BacktestEngine.Queue.Safety
import BacktestEngine.Queue.ThreadPool
import BacktestEngine.Queue.WorkQueue
import BacktestEngine.Reporting.BulkDelivery
import BacktestEngine.Reporting.DocumentBatcher
import BacktestEngine.Reporting.ElasticPublisher
import BacktestEngine.Reporting.OutcomeDocuments
import BacktestEngine.Reporting.ResultsSummary
import BacktestEngine.Strategies.CheckedIndicators
import BacktestEngine.Strategies.CheckedWindows
import BacktestEngine.Strategies.DecisionMirror
import BacktestEngine.Strategies.Ema
import BacktestEngine.Strategies.EntryConditions
import BacktestEngine.Strategies.FairValueGap
import BacktestEngine.Strategies.GapRule
import BacktestEngine.Strategies.GateDistances
import BacktestEngine.Strategies.KeltnerFade
import BacktestEngine.Strategies.LiquiditySweepReversal
import BacktestEngine.Strategies.OpenRange
import BacktestEngine.Strategies.OpenRangeStream
import BacktestEngine.Strategies.RangeVelocity
import BacktestEngine.Strategies.StrategyFactory
import BacktestEngine.Strategies.SweptLevels
import BacktestEngine.Strategies.SweptScan
import BacktestEngine.Strategies.TrendBreakouts
import BacktestEngine.Strategies.TrendFilter
import BacktestEngine.Strategies.VelocityRule
import BacktestEngine.Strategies.WindowRules
import BacktestEngine.Tracking.Archive
import BacktestEngine.Tracking.ClosePips
import BacktestEngine.Tracking.DealPacket
import BacktestEngine.Tracking.TrackingCommand
import BacktestEngine.Tracking.TrackingReport
import BacktestEngine.Trading.Accounting
import BacktestEngine.Trading.EntryCaps
import BacktestEngine.Trading.FirstPassage
import BacktestEngine.Trading.LossLimit
import BacktestEngine.Trading.Mirror
import BacktestEngine.Trading.RunLoop
import BacktestEngine.Trading.TimeCapExit
import BacktestEngine.Trading.TradeManager
