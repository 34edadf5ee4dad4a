import AlphaForge.Evm.Exec
import AlphaForge.Evm.Token
import AlphaForge.Evm.Abi
import AlphaForge.Text.Digits
import AlphaForge.Testnet.OrderJournal
import AlphaForge.Testnet.OrderJournal.Rows
import AlphaForge.Testnet.OrderJournal.Reopen
import AlphaForge.Testnet.Submission
import AlphaForge.Testnet.Submission.AtMostOnce
import AlphaForge.Security.Permit
import AlphaForge.Security.Permit.Respects
import AlphaForge.Security.Permit.Nonces
import AlphaForge.Text.Timestamp
import AlphaForge.Text.Hex
import AlphaForge.Text.Decimal
import AlphaForge.Text.Utf16
import AlphaForge.Data.Tiling
import AlphaForge.Data.OrderedMap
import AlphaForge.Data.Grouped
import AlphaForge.Data.LinkedChain
import AlphaForge.Data.Json
import AlphaForge.Data.Canonical
import AlphaForge.Data.Newton
import AlphaForge.Data.Turned
import AlphaForge.Data.Writes
import AlphaForge.Crypto.Keccak1600
import AlphaForge.Machine.Run
import AlphaForge.Machine.Throws
import AlphaForge.Machine.Commit
import AlphaForge.Machine.Async
import AlphaForge.Security.CanonicalJson
import AlphaForge.ChainAdapter.VaultAbi
import AlphaForge.ChainAdapter.Keccak
import AlphaForge.ChainAdapter.Keccak.Lanes
import AlphaForge.ChainAdapter.Keccak.Sponge
import AlphaForge.Amm.Share
import AlphaForge.Amm.Swap
import AlphaForge.Network
import AlphaForge.Market.PassPool
import AlphaForge.Market.PassPool.Value
import AlphaForge.Market.PassPool.Liveness
import AlphaForge.Market.PassPool.Split
import AlphaForge.Market.NativeReserve
import AlphaForge.Market.NativeReserve.Budget
import AlphaForge.Market.NativeReserve.Conversion
import AlphaForge.Market.LaunchMarket
import AlphaForge.Market.LaunchMarket.Executable
import AlphaForge.Market.LaunchMarket.Inverse
import AlphaForge.Market.Types
import AlphaForge.Market.ClaimReserve
import AlphaForge.Market.MarketStore
import AlphaForge.Market.MarketStore.Vouchers
import AlphaForge.Market.MarketStore.Limit
import AlphaForge.Market.QuoteTransaction
import AlphaForge.Market.QuoteService
import AlphaForge.Market.QuoteService.Figures
import AlphaForge.Market.EventIndex
import AlphaForge.Market.EventIndex.History
import AlphaForge.Market.EventIndex.Holdings
import AlphaForge.Market.Projector
import AlphaForge.Market.Projector.Run
import AlphaForge.Market.EventIndex.Chain
import AlphaForge.Market.EventIndex.Tick
import AlphaForge.Market.EventIndex.Indexed
import AlphaForge.Market.PassFactory
import AlphaForge.Market.FairLaunch
import AlphaForge.Market.FairLaunch.Run
import AlphaForge.Market.FairLaunch.Sellout
import AlphaForge.Vault.PassLocker
import AlphaForge.Vault.Base
import AlphaForge.Vault.Backing
import AlphaForge.Vault.StockReserve
import AlphaForge.Vault.StrategyVault
import AlphaForge.Vault.StrategyVault.Backing
import AlphaForge.Vault.StrategyVault.Pnl
import AlphaForge.Vault.StrategyVault.Executor
import AlphaForge.Vault.StrategyVault.Fill
import AlphaForge.Vault.StrategyVault.Exit
import AlphaForge.Vault.TradingVault
import AlphaForge.Vault.TradingVault.Backing
import AlphaForge.Vault.TradingVault.Latch
import AlphaForge.Vault.TradingVault.Events
import AlphaForge.Vault.TradingVault.Fill
import AlphaForge.Vault.TradingVault.Capital
import AlphaForge.Vault.TradingVault.Funding
import AlphaForge.Vault.Withdrawable
import AlphaForge.Domain.Vault
import AlphaForge.Domain.Vault.Invariant
import AlphaForge.Domain.Vault.Run
import AlphaForge.Domain.Vault.Status
import AlphaForge.Domain.Vault.PassLedger
import AlphaForge.Domain.Vault.Requests
import AlphaForge.Domain.Vault.Replay
import AlphaForge.Domain.Money
import AlphaForge.Automata.Engine
import AlphaForge.Automata.Engine.Moves
import AlphaForge.Automata.Engine.Balanced
import AlphaForge.Automata.Engine.Errors
import AlphaForge.Automata.Engine.Books
import AlphaForge.Automata.Engine.Affordable
import AlphaForge.Automata.Engine.Units
import AlphaForge.Automata.Engine.OneWay
import AlphaForge.Automata.Store
import AlphaForge.Automata.Store.Checkpoint
import AlphaForge.Automata.Store.Linked
import AlphaForge.Automata.Store.Progress
import AlphaForge.Indexer.TradingEvents
import AlphaForge.Indexer.TradingReader
import AlphaForge.Indexer.TradingPerformance
import AlphaForge.Indexer.Projection
import AlphaForge.Indexer.TradingPerformance.Conserved
import AlphaForge.Indexer.Reconcile
import AlphaForge.Indexer.Reconcile.Complete
import AlphaForge.Indexer.ChainStore
import AlphaForge.Indexer.Lifecycle
import AlphaForge.Indexer.Lifecycle.Evidence
import AlphaForge.Indexer.Database
import AlphaForge.Indexer.ChainStore.Steps
import AlphaForge.Indexer.ChainStore.Chain
import AlphaForge.Indexer.ChainStore.Reorg
import AlphaForge.Indexer.Database.Fingerprint
import AlphaForge.Indexer.Database.Rows
import AlphaForge.Indexer.TrackOperation
import AlphaForge.Indexer.TradingRuntime
import AlphaForge.Indexer.TradingRuntime.Legal
import AlphaForge.Indexer.TradingRuntime.Tracking
import AlphaForge.Indexer.TradingRuntime.Loop
import AlphaForge.Indexer.ChainRuntime
import AlphaForge.Indexer.ChainRuntime.Binding
import AlphaForge.Indexer.ChainRuntime.SyncToHead
import AlphaForge.Indexer.Database.Sync
import AlphaForge.Indexer.Database.Leased
import AlphaForge.Indexer.Database.Evidence
import AlphaForge.Indexer.ChainSync
import AlphaForge.Indexer.ChainSync.Indexed
import AlphaForge.Indexer.ChainSync.Knowledge
import AlphaForge.Indexer.ChainSync.Fenced
import AlphaForge.Indexer.ChainSync.Served
import AlphaForge.Indexer.ChainSync.Superseded
import AlphaForge.Indexer.ChainSync.Ready
import AlphaForge.Testnet.DeploymentPlan
import AlphaForge.Testnet.OrderReconciler
import AlphaForge.Testnet.OrderReconciler.Coverage
import AlphaForge.Reference.Batch
import AlphaForge.Reference.Capture
import AlphaForge.Reference.Captured
import AlphaForge.Reference.BatchText
import AlphaForge.Reference.Engine
import AlphaForge.Reference.Observed
import AlphaForge.Reference.Ema
import AlphaForge.Reference.Minutes
import AlphaForge.Reference.MinuteRuns
import AlphaForge.Reference.Steady
import AlphaForge.Reference.Sample
import AlphaForge.Reference.Paper
import AlphaForge.Reference.Paper.Course
import AlphaForge.Reference.Paper.Conserved
import AlphaForge.Reference.Paper.Units
import AlphaForge.Reference.Paper.OneWay
import AlphaForge.Reference.Paper.Budget
import AlphaForge.Executor.Plan
import AlphaForge.Executor.Plan.Sound
import AlphaForge.Executor.Service
import AlphaForge.Client.StockExecution
import AlphaForge.Client.ProductClient
import AlphaForge.Client.ProductClient.Ledger
import AlphaForge.Client.ProductClient.Settled
import AlphaForge.Client.MarketClient
import AlphaForge.Client.PaymentEstimate
import AlphaForge.Client.QuoteReview
import AlphaForge.Client.QuoteReview.Bounded
import AlphaForge.Client.QuoteReview.Agreement
import AlphaForge.Client.OrderShortcuts
import AlphaForge.Client.OrderShortcuts.Affordable
import AlphaForge.Client.DeploymentWallet
import AlphaForge.Client.DeploymentWallet.Session
import AlphaForge.Client.DeploymentWallet.SendNext
import AlphaForge.Client.DeploymentWallet.Protocol
import AlphaForge.Client.DeploymentWallet.Reading
import AlphaForge.Client.DeploymentWallet.Calls
import AlphaForge.Client.DeploymentWallet.AtMostOnce
import AlphaForge.Client.M3SubmissionJournal
import AlphaForge.Client.M3BrowserRuntime
import AlphaForge.Client.M3BrowserRuntime.Reads
import AlphaForge.Client.M3BrowserRuntime.Session
import AlphaForge.Client.M3BrowserRuntime.Actions
import AlphaForge.Client.M3BrowserRuntime.Notes
import AlphaForge.Client.M3BrowserRuntime.Protocol
import AlphaForge.Client.M3BrowserRuntime.Reading
import AlphaForge.Client.M3BrowserRuntime.Authority
import AlphaForge.Client.M3BrowserRuntime.Connected
import AlphaForge.Client.M3BrowserRuntime.Calldata
import AlphaForge.Client.M3BrowserRuntime.Submissions
import AlphaForge.Client.M3BrowserRuntime.Runs
