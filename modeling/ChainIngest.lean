import ChainIngest.Main
import ChainIngest.Simulation.Command
import ChainIngest.Simulation.Trace
import ChainIngest.Proofs.Semantics
import ChainIngest.Proofs.CheckpointKeys
import ChainIngest.Proofs.CheckpointHeights
import ChainIngest.Proofs.Surroundings
import ChainIngest.Proofs.LedgerGrowth
import ChainIngest.Proofs.TransferHistory
import ChainIngest.Proofs.Scan
import ChainIngest.Proofs.Streams
import ChainIngest.Proofs.Ticks
import ChainIngest.Proofs.Progress
import ChainIngest.Proofs.ExactlyOnce
import ChainIngest.Proofs.Fleet
import ChainIngest.Proofs.ByteNumbers
import ChainIngest.Proofs.SharedLedger
import ChainIngest.Proofs.Acceptance
import ChainIngest.Proofs.CheckpointWriters
import ChainIngest.Proofs.SimulatedSurroundings
import ChainIngest.Proofs.Interference
import ChainIngest.Proofs.Footprints
import ChainIngest.Proofs.TickPlans
import ChainIngest.Proofs.LateTransfers
import ChainIngest.Proofs.SerialTicks
import ChainIngest.Proofs.Guards
import ChainIngest.Proofs.ForwardProgress
import ChainIngest.Proofs.Parallel
import ChainIngest.Proofs.Callers
import ChainIngest.Proofs.Outages
import ChainIngest.Proofs.Workers
import ChainIngest.Proofs.CatchUps
import ChainIngest.Proofs.HeadRefreshes
import ChainIngest.Proofs.Bystanders
import ChainIngest.Proofs.Startup
import ChainIngest.Proofs.HeadUpdates
import ChainIngest.Proofs.HexTexts
import ChainIngest.Proofs.TransferRows
import ChainIngest.Proofs.DecimalValues
import ChainIngest.Proofs.DecimalRounding
import ChainIngest.Proofs.TokenPrice
import ChainIngest.Proofs.SignificantDigits
import ChainIngest.Proofs.PriceOrder
import ChainIngest.Proofs.NumberTexts
import ChainIngest.Proofs.PriceRows
import ChainIngest.Proofs.Deeds
import ChainIngest.Proofs.RowCounts
import ChainIngest.Proofs.ScrapeJob
import ChainIngest.Proofs.Launching
import ChainIngest.Proofs.ConcurrentInsertions
import ChainIngest.Proofs.PriceLedger
import ChainIngest.Proofs.HeaderHandling
import ChainIngest.Proofs.HeaderFollowing
import ChainIngest.Proofs.WindowRecords
import ChainIngest.Proofs.EventLogs
import ChainIngest.Proofs.IdleTicks
import ChainIngest.Proofs.Chronicles
import ChainIngest.Proofs.FailedTicks
import ChainIngest.Proofs.CatchUpLength
import ChainIngest.Proofs.NumericCheckpoints
import ChainIngest.Proofs.RememberedTimes
import ChainIngest.Proofs.Reachability
import ChainIngest.Proofs.CadencePace
import ChainIngest.Proofs.CadenceShutdown
import ChainIngest.Proofs.AddressTexts
import ChainIngest.Proofs.PoolPrice
import ChainIngest.Proofs.EnvironmentOverlay
