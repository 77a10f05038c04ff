import ArwaAgent.Agent.FundState
import ArwaAgent.Agent.RiskGuard
import ArwaAgent.Lib.Program

/-!
# The agent and what it calls

The records that the analyst and the executor pass on, the environment variables they
read, and `Op`, the calls they make to other modules of the agent and to the outside.
Whatever another party decides (an MCP server, the LLM, the signal server, a node) is
an answer of a call, and any answer is possible: a field of type `Value` may be any
JSON value, or missing.
-/

namespace ArwaAgent

open Js

/-- A revenue event. -/
structure RevenueEvent where
  timestamp : Number
  amount : String
  asset : String
  source : String
  emitter : String
  reference : String

/-- A quote of the exchange. -/
structure Quote where
  amountOut : Value
  priceImpact : Value
  pair : String
  expiresAt : ℕ

/-- The proof of an x402 payment. -/
structure X402Proof where
  paymentHeader : String
  settleTxHash : Value
  facilitator : String
  amountMotes : String
  asset : String
  signedAt : ℕ

/-- What a paid request brings: the body, and the proof unless it was free. -/
structure X402Response where
  data : Value
  proof : Option X402Proof

/-- A strategy that the analyst proposes. -/
structure StrategyProposal where
  action : Value
  pair : String
  tokenIn : String
  tokenOut : Value
  amountIn : String
  minAmountOut : Value
  rationale : Value
  confidence : Value
  x402Proof : Option X402Proof
  revenueEvent : RevenueEvent
  validatorPubKey : Option String

/-- What became of a transaction, as far as its sender can tell. -/
structure ExecutionResult where
  txHash : Value
  outcome : Outcome

/-- What became of a swap. -/
structure SwapResult where
  deployHash : Value
  success : Bool

/-- What the LLM is shown. -/
structure LLMContext where
  accountBalance : Value
  quote : Quote
  signal : Value
  portfolio : Value
  revenueEvent : RevenueEvent

/-- A pair of the exchange that the pair selector has chosen. -/
structure SelectedPair where
  pair : String
  tokenOut : Value

/-- A decision as it is sent to the audit log. -/
structure AgentVaultLog where
  action : Value
  amountIn : String
  amountOut : Value
  tokenIn : String
  tokenOut : Value
  tokenInHex : String
  pair : String
  txHash : Value
  x402Proof : String
  x402Signer : Value
  outcome : String

/-- The parameters of a swap or liquidity transaction. -/
structure BuildParams where
  action : Value
  tokenIn : String
  tokenOut : Value
  amountIn : String
  minAmountOut : Value
  payerAddress : String

/-- The public half of the agent's keys. -/
structure AgentKeys where
  publicKey : String
  accountHash : String

/-- A token balance, and where it was read. -/
structure TokenBalance where
  balance : String
  source : String

/-- The configuration and the environment variables that a cycle reads. -/
structure Config where
  agentVaultContractHash : Option String
  revenueEmitterContractHash : Option String
  x402SignalEndpoint : String
  llmApiKey : Option String
  stakingValidatorPubkey : Option String
  arwaMinStakeMotes : Option String
  risk : RiskEnv

/-- `MIN_STAKE_MOTES`: 500 CSPR unless the environment sets a number of motes. -/
def Config.minStakeMotes (cfg : Config) : ℤ :=
  match cfg.arwaMinStakeMotes with
  | some v => if v ≠ "" ∧ v.toList.all Char.isDigit then ofDigits 10 v.toList else 500000000000
  | none => 500000000000

/-- `FALLBACK_TESTNET_VALIDATORS` -/
def fallbackTestnetValidators : List String :=
  ["01000019478b67d07c3adc460db360deef6c663ec55ba29db70b458e47022a3d81",
    "010003b919dfb5452365d62c59efbe424a604c419bb611d19df12c8355ff3a3bae",
    "0100047d1ac77bc5495dcbee707d38148d576a05d593f2e20bc272040b740df8e6"]

/-- The calls of a cycle.  `runExecutor` marks the moment at which a cycle hands a proposal to
its executor; it has no effect of its own. -/
inductive Op
  | dateNow
  | getAgentKeys
  | getAgentCep18Balance (accountHash : String)
  | getAccountInfo (publicKey : String)
  | getVaultOverview
  | getRecentRevenueEvents (emitterHash : String) (limit : ℕ)
  | checkCircuitBreaker
  | selectBestPair (amountInMotes : String)
  | getQuote (tokenIn : String) (tokenOut : Value) (amount : String)
  | getPortfolioValue (address : String)
  | payAndFetchViaX402 (endpoint paymentAmountOverride : String)
  | callLLM (ctx : LLMContext)
  | runExecutor (proposal : StrategyProposal)
  | delegateToValidator (amountMotes validatorPubKeyHex : String)
  | buildUnsignedDeploy (params : BuildParams)
  | signAndSubmitSwap (txJson : Value)
  | recordStrategyExecution (kind target amountMotes : String) (openedTx : Value)
  | recordPositionOpened
  | recordCustodianDeposit (motes : String)
  | recordStrategyOutcome (outcome : Outcome)
  | updatePortfolioSnapshot (valueMotes : Value)
  | logStrategyToVault (log : AgentVaultLog)
  | resetCircuitBreaker

/-- What a call is answered with; those that may throw answer an `Except`. -/
@[reducible] def Ans : Op → Type
  | .dateNow => ℕ
  | .getAgentKeys => Except Error AgentKeys
  | .getAgentCep18Balance _ => Except Error TokenBalance
  | .getAccountInfo _ => Except Error Value
  | .getVaultOverview => Except Error Unit
  | .getRecentRevenueEvents _ _ => Except Error Value
  | .checkCircuitBreaker => CircuitBreakerState
  | .selectBestPair _ => Except Error (Option SelectedPair)
  | .getQuote _ _ _ => Except Error Quote
  | .getPortfolioValue _ => Except Error Value
  | .payAndFetchViaX402 _ _ => Except Error X402Response
  | .callLLM _ => Except Error Value
  | .runExecutor _ => Unit
  | .delegateToValidator _ _ => Except Error ExecutionResult
  | .buildUnsignedDeploy _ => Except Error Value
  | .signAndSubmitSwap _ => Except Error SwapResult
  | .recordStrategyExecution _ _ _ _ => Except Error Value
  | .recordPositionOpened => Unit
  | .recordCustodianDeposit _ => Except Error Unit
  | .recordStrategyOutcome _ => Unit
  | .updatePortfolioSnapshot _ => Except Error Unit
  | .logStrategyToVault _ => Except Error ExecutionResult
  | .resetCircuitBreaker => Unit

/-- Code of the agent, with local variables in `L`. -/
abbrev Agent (L α : Type) : Type :=
  Effects.Code Op Ans Error L α

end ArwaAgent
