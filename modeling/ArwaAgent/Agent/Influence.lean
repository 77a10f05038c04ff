import ArwaAgent.Agent.Proposal
import ArwaAgent.Agent.Scenario

/-!
# What the untrusted sources cannot change

The LLM, the signal and the exchange have a say in the action, the token to buy, the floor
and the confidence of a proposal.  They have none in what is spent: the amount is fixed by
the event, the forced action and the breaker, the token that is paid with is always CSPR, and
a stake goes to the validator of the configuration.
-/

namespace ArwaAgent

open Js Effects Effects.Code

/-- The amount of a proposal: nothing when the cycle is held. -/
def proposedAmount (input : AnalystInput) (cb : CircuitBreakerState) : String :=
  if cb.tripped || input.forceAction.is "hold" then "0" else input.revenueEvent.amount

/-- The validator of a stake. -/
def validatorOf (cfg : Config) : String :=
  cfg.stakingValidatorPubkey.getD (fallbackTestnetValidators.headD "")

section

variable {cfg : Config} {input : AnalystInput} {s : Seen}

lemma is_eq_false_of_not_truthy {v : Value} (text : String) (h : v.truthy = false)
    (htext : text ≠ "") : v.is text = false := by
  cases v with
  | str t =>
    simp only [Value.truthy, ne_eq, decide_not, Bool.not_eq_false', decide_eq_true_eq] at h
    subst h
    simpa [Value.is] using htext.symm
  | _ => rfl

lemma Forces.amount {m : Market} {d d' : Decision} {amountIn : String}
    (h : Forces input m d d' amountIn) :
    amountIn = if input.forceAction.is "hold" then "0" else input.revenueEvent.amount := by
  cases h with
  | free hfree =>
    have hhold := is_eq_false_of_not_truthy "hold" hfree (by decide)
    simp [hhold]
  | hold hforce hconf => simp [hforce]
  | stake hforce haction hconf =>
    have hhold : input.forceAction.is "hold" = false := by
      cases hv : input.forceAction with
      | str t =>
        rw [hv] at hforce
        obtain rfl : t = "stake" := by simpa [Value.is] using hforce
        decide
      | _ => rfl
    simp [hhold]
  | quoted hforce hhold htoken hmin hout hconf => simp [hhold]

/-- What is spent is fixed by the event, the forced action, the breaker and the configuration. -/
lemma Proposes.spends {p : StrategyProposal} (h : Proposes cfg input s p) :
    ∃ cb, s.breaker = some cb ∧ p.amountIn = proposedAmount input cb ∧ p.tokenIn = "CSPR" ∧
      (p.action = .str "stake" → p.validatorPubKey = some (validatorOf cfg)) := by
  cases h with
  | @held cb hcb ht =>
    refine ⟨cb, hcb, ?_, rfl, ?_⟩
    · simp [proposedAmount, ht, buildHoldProposal]
    · intro hstake
      simp [buildHoldProposal] at hstake
  | @decided cb m d d' amountIn pair hcb ht hm hd hforce =>
    refine ⟨cb, hcb, ?_, rfl, ?_⟩
    · rw [proposedAmount, ht, Bool.false_or]
      exact (forces_of_applyForceAction hforce).amount
    · intro hstake
      change d'.action = .str "stake" at hstake
      simp [toProposal, hstake, Value.is, validatorOf]

end

/-- Two runs of the analyst on the same event, with the same forced action and the same breaker,
propose to spend the same, whatever the LLM, the signal, the exchange and everyone else have
answered: the amount of the event or, for a hold, nothing, in the same token, and in a stake with
the same validator. -/
theorem proposals_spend_alike {X Y : Type} {cfg : Config} {input input' : AnalystInput}
    {f : X → (op : Op) → Ans op × X} {g : Y → (op : Op) → Ans op × Y} {x : X} {y : Y}
    {p p' : StrategyProposal} (hevent : input.revenueEvent = input'.revenueEvent)
    (hforce : input.forceAction = input'.forceAction)
    (hbreaker : (Seen.of (playAnalyst cfg input f x).1).breaker =
      (Seen.of (playAnalyst cfg input' g y).1).breaker)
    (h : (playAnalyst cfg input f x).2.2.1 = .ok p)
    (h' : (playAnalyst cfg input' g y).2.2.1 = .ok p') :
    (∃ cb, (Seen.of (playAnalyst cfg input f x).1).breaker = some cb ∧
        p.amountIn = proposedAmount input cb) ∧
      p.amountIn = p'.amountIn ∧ p.tokenIn = p'.tokenIn ∧
      (p.action = .str "stake" → p'.action = .str "stake" →
        p.validatorPubKey = p'.validatorPubKey) := by
  obtain ⟨cb, hcb, hamount, htoken, hstake⟩ := (proposes_of_playAnalyst h).spends
  obtain ⟨cb', hcb', hamount', htoken', hstake'⟩ := (proposes_of_playAnalyst h').spends
  obtain rfl : cb = cb' := by
    rw [hcb, hcb'] at hbreaker
    exact Option.some.inj hbreaker
  have hsame : proposedAmount input cb = proposedAmount input' cb := by
    rw [proposedAmount, proposedAmount, hevent, hforce]
  refine ⟨⟨cb, hcb, hamount⟩, ?_, ?_, fun ha ha' => ?_⟩
  · rw [hamount, hamount', hsame]
  · rw [htoken, htoken']
  · rw [hstake ha, hstake' ha']

/-! ### Two answers of the LLM -/

/-- A configuration with an LLM. -/
def llmConfig : Config :=
  { plainConfig with llmApiKey := some "key" }

/-- The analyst on an event of 1 CSPR, with no action forced. -/
def freeInput : AnalystInput where
  revenueEvent := ⟨.finite 0, "1000000000", "0", "parking-lot-demo", "0", "demo-ref-001"⟩
  ownerAddress := ""
  signalEndpoint := plainConfig.x402SignalEndpoint
  signalPriceMotes := "1000000"
  forceHeuristic := false
  forceAction := .undefined

/-- An environment with a given answer of the LLM. -/
def answering (out : Value) : Answers
  | .callLLM _ => .ok out
  | op => openMarket op

/-- The run of the analyst with a given answer of the LLM. -/
def playAnswering (out : Value) :
    List (Event Op Ans Unit) × Unit × (Except Error StrategyProposal × Unit) :=
  playAnalyst llmConfig freeInput (fun x op => (answering out op, x)) ()

/-- An answer that wants to stake. -/
def stakeAnswer (amountIn : String) : Value :=
  .obj [("action", .str "stake"), ("amount_in", .str amountIn), ("confidence", .num (.finite 90))]

/-- Two answers that want to stake, with different amounts. -/
theorem proposals_spend_alike_stakes :
    ∃ p p', (playAnswering (stakeAnswer "1")).2.2.1 = .ok p ∧
      (playAnswering (stakeAnswer "9")).2.2.1 = .ok p' ∧
      p.amountIn = p'.amountIn ∧ p.validatorPubKey = p'.validatorPubKey := by
  refine ⟨_, _, rfl, rfl, ?_⟩
  have hone : (playAnswering (stakeAnswer "1")).2.2.1 = .ok _ := rfl
  have hnine : (playAnswering (stakeAnswer "9")).2.2.1 = .ok _ := rfl
  obtain ⟨-, hamount, -, hvalidator⟩ := proposals_spend_alike rfl rfl rfl hone hnine
  exact ⟨hamount, hvalidator rfl rfl⟩

end ArwaAgent
