import ArwaAgent.Lib.History
import ArwaAgent.Lib.Transition
import ArwaAgent.Lib.RingBuffer
import ArwaAgent.Lib.Program
import ArwaAgent.Lib.Returns
import ArwaAgent.Lib.Outcome
import ArwaAgent.Lib.Pool
import ArwaAgent.Lib.Handler
import ArwaAgent.Lib.Calls
import ArwaAgent.Lib.Settlement
import ArwaAgent.Lib.HighWater
import ArwaAgent.Lib.Record
import ArwaAgent.Lib.Search
import ArwaAgent.Lib.Ranking
import ArwaAgent.Lib.OnDemand
import ArwaAgent.Odra.Basic
import ArwaAgent.Odra.Collections
import ArwaAgent.Odra.Runs
import ArwaAgent.Contracts.StakeholderDeposit
import ArwaAgent.Contracts.DepositSpec
import ArwaAgent.Contracts.DepositWorld
import ArwaAgent.Contracts.DepositLedger
import ArwaAgent.Contracts.DepositRefinement
import ArwaAgent.Contracts.DepositSolvency
import ArwaAgent.Contracts.DepositWithdrawal
import ArwaAgent.Contracts.DepositConservation
import ArwaAgent.Contracts.DepositRetention
import ArwaAgent.Contracts.DepositOverflow
import ArwaAgent.Js.Number
import ArwaAgent.Js.Value
import ArwaAgent.Js.Text
import ArwaAgent.Js.Integers
import ArwaAgent.Js.Json
import ArwaAgent.Js.Indented
import ArwaAgent.Js.Bytes
import ArwaAgent.Js.Order
import ArwaAgent.Js.Decimal
import ArwaAgent.Agent.RiskGuard
import ArwaAgent.Agent.FundState
import ArwaAgent.Agent.Types
import ArwaAgent.Agent.Cycle
import ArwaAgent.Agent.System
import ArwaAgent.Agent.Protocol
import ArwaAgent.Agent.Scenario
import ArwaAgent.Agent.BreakerSafety
import ArwaAgent.Agent.Tally
import ArwaAgent.Agent.Execution
import ArwaAgent.Agent.HoldOutcomes
import ArwaAgent.Agent.Drawdown
import ArwaAgent.Agent.GuardHistory
import ArwaAgent.Agent.GuardFile
import ArwaAgent.Agent.BreakerRecovery
import ArwaAgent.Agent.Submission
import ArwaAgent.Agent.Exchange
import ArwaAgent.Agent.PairSelector
import ArwaAgent.Agent.PairSelection
import ArwaAgent.Agent.OutcomeTruth
import ArwaAgent.Agent.PositionRecord
import ArwaAgent.X402.Server
import ArwaAgent.X402.Requests
import ArwaAgent.X402.Purchase
import ArwaAgent.X402.Replay
import ArwaAgent.X402.Spelling
import ArwaAgent.X402.Soundness
import ArwaAgent.X402.Client
import ArwaAgent.X402.Transfer
import ArwaAgent.X402.Agreement
import ArwaAgent.X402.Normalisation
import ArwaAgent.Contracts.AgentVault
import ArwaAgent.Contracts.VaultHistory
import ArwaAgent.Contracts.VaultDecisions
import ArwaAgent.Contracts.VaultCustody
import ArwaAgent.Contracts.VaultBacking
import ArwaAgent.Contracts.VaultAccess
import ArwaAgent.Contracts.VaultEvents
import ArwaAgent.Contracts.RevenueEmitter
import ArwaAgent.Contracts.RevenueLog
import ArwaAgent.Contracts.RevenueAuthority
import ArwaAgent.Agent.FundStore
import ArwaAgent.Agent.FundTexts
import ArwaAgent.Agent.BalanceText
import ArwaAgent.Agent.FundConservation
import ArwaAgent.Agent.FundWorld
import ArwaAgent.Agent.FundMoves
import ArwaAgent.Agent.FundMirror
import ArwaAgent.Agent.AuditTrace
import ArwaAgent.Agent.AuditRecord
import ArwaAgent.Agent.AuditLimits
import ArwaAgent.CsprCloud.DepositConsumer
import ArwaAgent.CsprCloud.DepositDelivery
import ArwaAgent.CsprCloud.Streaming
import ArwaAgent.CsprCloud.LiveEvents
import ArwaAgent.Agent.Proposal
import ArwaAgent.Agent.Heuristics
import ArwaAgent.Agent.Influence
import ArwaAgent.Agent.SlippageFloor
import ArwaAgent.Agent.HeuristicAgreement
import ArwaAgent.Agent.ConfidenceGate
import ArwaAgent.X402.Forecast
import ArwaAgent.X402.ForecastScope
import ArwaAgent.X402.ForecastText
import ArwaAgent.Mcp.Connection
import ArwaAgent.Mcp.Outage
import ArwaAgent.CsprCloud.Reconnection
import ArwaAgent.X402.Spending
import ArwaAgent.X402.Wire
import ArwaAgent.X402.Facilitator
import ArwaAgent.Agent.CycleSpending
import ArwaAgent.Agent.LLM
import ArwaAgent.Lib.Replacement
import ArwaAgent.Agent.FundFile
import ArwaAgent.Contracts.DepositAccess
import ArwaAgent.Lib.EventStream
import ArwaAgent.Agent.Dashboard
import ArwaAgent.Js.Fixed
import ArwaAgent.Agent.FundCard
import ArwaAgent.Agent.Simulation
import ArwaAgent.Agent.Offer
import ArwaAgent.Agent.SwapDelivery
