import VexCore.Framework.BinarySearch
import VexCore.Framework.BlockLog
import VexCore.Framework.Bytes
import VexCore.Framework.DeferredRemoval
import VexCore.Framework.Escrow
import VexCore.Framework.Floor
import VexCore.Framework.Greedy
import VexCore.Framework.Latest
import VexCore.Framework.Local
import VexCore.Framework.Log
import VexCore.Framework.Pipeline
import VexCore.Framework.SoleActor
import VexCore.Framework.SortedMap
import VexCore.Framework.Window
import VexCore.Framework.Word
import VexCore.Common.Balance
import VexCore.Common.Command
import VexCore.Common.Market
import VexCore.Common.Snowflake
import VexCore.Common.Types
import VexCore.Config.Symbols
import VexCore.Order.Acceptance
import VexCore.Order.Codec
import VexCore.Orderbook.Book
import VexCore.Orderbook.Cancel
import VexCore.Orderbook.Cancellation
import VexCore.Orderbook.Crossing
import VexCore.Orderbook.FillOrKill
import VexCore.Orderbook.Invariant
import VexCore.Orderbook.Matching
import VexCore.Orderbook.Placement
import VexCore.Orderbook.Priority
import VexCore.Orderbook.Run
import VexCore.Orderbook.Sizes
import VexCore.Orderbook.Tree
import VexCore.Orderbook.Views
import VexCore.Orderbook.Volumes
import VexCore.Processors.Admission
import VexCore.Processors.BalanceStream
import VexCore.Processors.EventLog
import VexCore.Processors.Events
import VexCore.Processors.Journaling
import VexCore.Processors.MatchingEngine
import VexCore.Processors.Reservation
import VexCore.Processors.RiskEngine
import VexCore.Server.Books
import VexCore.Server.Engine
import VexCore.Server.EventRuns
import VexCore.Server.EventStory
import VexCore.Server.Frames
import VexCore.Server.Handlers
import VexCore.Server.Intake
import VexCore.Server.Journal
import VexCore.Server.Locality
import VexCore.Server.Rejection
import VexCore.Server.Replay
import VexCore.Server.Sharding
import VexCore.Server.Snapshots
import VexCore.Ledger.Accounts
import VexCore.Ledger.Atomicity
import VexCore.Ledger.Backing
import VexCore.Ledger.Bookkeeping
import VexCore.Ledger.Commands
import VexCore.Ledger.Conservation
import VexCore.Ledger.Convergence
import VexCore.Ledger.Determinism
import VexCore.Ledger.Exactness
import VexCore.Ledger.Following
import VexCore.Ledger.Overflow
import VexCore.Ledger.Plan
import VexCore.Ledger.Reference
import VexCore.Ledger.Reserves
import VexCore.Ledger.Reserving
import VexCore.Ledger.Rounding
import VexCore.Ledger.Runs
import VexCore.Ledger.Settling
import VexCore.Ledger.Solvency
import VexCore.Ledger.Stages
import VexCore.Ledger.Stranding
import VexCore.Ledger.Stream
import VexCore.Networking.Allocators
import VexCore.Networking.Capacity
import VexCore.Networking.Cleanup
import VexCore.Networking.GatewayManager
import VexCore.Networking.Handshake
import VexCore.Networking.Lifecycle
import VexCore.Networking.Recording
import VexCore.Networking.Resources
import VexCore.Networking.Responses
import VexCore.Framework.Keyed
import VexCore.Stream.Serial
import VexCore.Stream.Steps
import VexCore.Stream.Orders
import VexCore.Stream.Trades
import VexCore.Framework.Progress
import VexCore.Server.Minting
import VexCore.Stream.Answers
import VexCore.Ledger.Recovery
import VexCore.Networking.Protocol
import VexCore.Networking.Agreement
import VexCore.Framework.Depletion
import VexCore.Orderbook.Extent
import VexCore.Orderbook.Splitting
import VexCore.Orderbook.Undo
import VexCore.Orderbook.Wrapping
import VexCore.Framework.Cheapest
import VexCore.Orderbook.BestExecution
import VexCore.Stream.Depth
import VexCore.Stream.Audit
import VexCore.Stream.Markets
