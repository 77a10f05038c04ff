import ArwaAgent.Agent.System

/-!
# Scenarios

Runs of the agent in which every job runs at a stretch and the environment answers by a
fixed function: enough to reach the states that the counterexamples and the recovery of
the breaker need.
-/

namespace ArwaAgent

open Js Effects Effects.Code

/-- The answers of an environment. -/
abbrev Answers : Type := (op : Op) → Ans op

/-- Answer a call: inside the agent if it can, else by the environment. -/
def respond (cfg : Config) (answers : Answers) (x : Shared) (op : Op) : Ans op × Shared :=
  (x.local cfg op).getD (answers op, x)

lemma answer_respond (cfg : Config) (answers : Answers) (x : Shared) (op : Op) :
    (machine cfg).answer x op (respond cfg answers x op).1 (respond cfg answers x op).2 := by
  simp only [machine, respond]
  cases x.local cfg op with
  | none => rfl
  | some p => exact ⟨rfl, rfl⟩

/-- One part of a scenario. -/
inductive Stage
  | job (answers : Answers) (j : Job)
  | wait (ms : ℕ)

/-- The world after one part of a scenario. -/
def AgentWorld.stage (cfg : Config) (w : AgentWorld) : Stage → AgentWorld
  | .job answers j => Pool.finish (machine cfg) (respond cfg answers) w j
  | .wait ms => { w with shared := { w.shared with now := w.shared.now + ms } }

/-- The calls of one part of a scenario. -/
def AgentWorld.stageEntries (cfg : Config) (w : AgentWorld) : Stage → List AgentEntry
  | .job answers j => Pool.entries (machine cfg) (respond cfg answers) w j
  | .wait _ => []

section

variable {cfg : Config} {ok : AgentWorld → Pool.Label Op Ans Shared Job → Prop}

lemma continues_stage {w : AgentWorld} {st : Stage}
    (hdrift : ∀ now, ok w (.drift { w.shared with now := now }))
    (hstart : ∀ answers j, st = .job answers j → ok w (.start j))
    (hturn : ∀ w', ∀ e ∈ w.stageEntries cfg st, ok w' (.turn e)) :
    ((agentSystem cfg).restrict ok).Continues w (w.stage cfg st) := by
  cases st with
  | job answers j =>
    exact Pool.continues_finish (answer_respond cfg answers) (hstart answers j rfl) hturn
  | wait ms =>
    have hstep : (machine cfg).drift w.shared { w.shared with now := w.shared.now + ms } :=
      ⟨Nat.le_add_right _ _, rfl, rfl⟩
    exact .cons ⟨hdrift _, .drift hstep⟩ .refl

lemma idle_stage {w : AgentWorld} (h : Pool.Idle w) (st : Stage) : Pool.Idle (w.stage cfg st) := by
  cases st with
  | job answers j =>
    intro t ht
    rcases List.mem_append.1 ht with ht | ht
    · exact h t ht
    · rw [List.mem_singleton.1 ht]
  | wait ms => exact h

lemma log_stage (w : AgentWorld) (st : Stage) :
    (w.stage cfg st).log = w.log ++ w.stageEntries cfg st := by
  cases st with
  | job answers j => rfl
  | wait ms => exact (List.append_nil _).symm

/-- The world after a scenario that starts without state files. -/
def AgentWorld.after (cfg : Config) (stages : List Stage) : AgentWorld :=
  stages.foldl (AgentWorld.stage cfg)
    ⟨⟨0, RiskGuard.defaultState, FundState.defaultState 0, 0⟩, [], []⟩

lemma AgentWorld.after_append (cfg : Config) (stages : List Stage) (st : Stage) :
    AgentWorld.after cfg (stages ++ [st]) = (AgentWorld.after cfg stages).stage cfg st := by
  simp [AgentWorld.after, List.foldl_append]

/-- A scenario is a run, with a side condition that its jobs, its calls and time meet. -/
theorem reachableVia_after {stages : List Stage}
    (hdrift : ∀ w now, ok w (.drift { w.shared with now := now }))
    (hstart : ∀ w answers j, .job answers j ∈ stages → ok w (.start j))
    (hturn : ∀ w, ∀ e ∈ (AgentWorld.after cfg stages).log, ok w (.turn e)) :
    (agentSystem cfg).ReachableVia ok (AgentWorld.after cfg stages) := by
  induction stages using List.reverseRecOn with
  | nil => exact .init ⟨⟨rfl, rfl⟩, rfl, rfl⟩
  | append_singleton stages st ih =>
    rw [AgentWorld.after_append, log_stage] at hturn
    have hbefore := ih
      (fun w answers j hj => hstart w answers j (List.mem_append_left _ hj))
      fun w e he => hturn w e (List.mem_append_left _ he)
    rw [AgentWorld.after_append]
    refine hbefore.continues (continues_stage (hdrift _) ?_ ?_)
    · rintro answers j rfl
      exact hstart _ answers j (List.mem_append_right _ (List.mem_singleton_self _))
    · exact fun w e he => hturn w e (List.mem_append_right _ he)

theorem reachable_after (cfg : Config) (stages : List Stage) :
    (agentSystem cfg).Reachable (AgentWorld.after cfg stages) :=
  reachableVia_after (fun _ _ => trivial) (fun _ _ _ _ => trivial) fun _ _ _ => trivial

theorem idle_after (cfg : Config) (stages : List Stage) :
    Pool.Idle (AgentWorld.after cfg stages) := by
  induction stages using List.reverseRecOn with
  | nil => exact fun t ht => nomatch ht
  | append_singleton stages st ih =>
    rw [AgentWorld.after_append]
    exact idle_stage ih st

end

/-! ### An environment in which little works -/

/-- The environment in which only the keys can be read and the signal is free and empty; every
other call throws. -/
def outage : Answers
  | .dateNow => 0
  | .getAgentKeys => .ok ⟨"02" ++ String.ofList (List.replicate 66 'a'), "b"⟩
  | .getAgentCep18Balance _ => .error ⟨"unavailable"⟩
  | .getAccountInfo _ => .error ⟨"unavailable"⟩
  | .getVaultOverview => .error ⟨"unavailable"⟩
  | .getRecentRevenueEvents _ _ => .error ⟨"unavailable"⟩
  | .checkCircuitBreaker => ⟨false, "ok", .finite 0, 0, 0, 0⟩
  | .selectBestPair _ => .error ⟨"unavailable"⟩
  | .getQuote _ _ _ => .error ⟨"unavailable"⟩
  | .getPortfolioValue _ => .error ⟨"unavailable"⟩
  | .payAndFetchViaX402 _ _ => .ok ⟨.obj [], none⟩
  | .callLLM _ => .error ⟨"unavailable"⟩
  | .runExecutor _ => ()
  | .delegateToValidator _ _ => .error ⟨"unavailable"⟩
  | .buildUnsignedDeploy _ => .error ⟨"unavailable"⟩
  | .signAndSubmitSwap _ => .error ⟨"unavailable"⟩
  | .recordStrategyExecution _ _ _ _ => .error ⟨"unavailable"⟩
  | .recordPositionOpened => ()
  | .recordCustodianDeposit _ => .error ⟨"unavailable"⟩
  | .recordStrategyOutcome _ => ()
  | .updatePortfolioSnapshot _ => .error ⟨"unavailable"⟩
  | .logStrategyToVault _ => .error ⟨"unavailable"⟩
  | .resetCircuitBreaker => ()

/-- The environment in which, besides, the exchange quotes one for one, and the node accepts
and executes every strategy. -/
def openMarket : Answers
  | .getQuote _ _ amount => .ok ⟨.str amount, .str "0%", "CSPR/sCSPR", 0⟩
  | .buildUnsignedDeploy _ => .ok (.obj [])
  | .signAndSubmitSwap _ => .ok ⟨.str "c0ffee", true⟩
  | .delegateToValidator _ _ => .ok ⟨.str "c0ffee", .success⟩
  | op => outage op

/-- A configuration without contracts, LLM or environment variables. -/
def plainConfig : Config where
  agentVaultContractHash := none
  revenueEmitterContractHash := none
  x402SignalEndpoint := "https://signals.ARWA.example.com/utilization"
  llmApiKey := none
  stakingValidatorPubkey := none
  arwaMinStakeMotes := none
  risk := ⟨none, none⟩

/-- A cycle on an amount of motes with a forced action. -/
def forced (action amount : String) : Job :=
  .cycle ⟨⟨.finite 0, amount, "0", "parking-lot-demo", "0", "demo-ref-001"⟩, "", .str action⟩

end ArwaAgent
