import ArwaAgent.Agent.Heuristics
import ArwaAgent.Agent.Influence

/-!
# Which swaps keep to their quote

A swap keeps to its quote if it buys the token that the quote was taken for, at no less than
the quoted amount minus half a percent.  The heuristic of the analyst and the forced actions
see to that.  The answer of the LLM is copied as it is, and the fallback of the LLM buys
sCSPR whatever has been quoted.
-/

namespace ArwaAgent

open Js Effects Effects.Code

/-- The token and the floor of a swap keep to the quote that has been seen.  A quote without an
amount that can be read sets no floor. -/
structure KeepsQuote (s : Seen) (event : RevenueEvent) (tokenOut minAmountOut : Value) : Prop where
  token : tokenOut = s.quotedToken
  floor : ∀ n, (s.amountOut event).toBigInt = .ok n →
    ∃ floor, minAmountOut.toBigInt = .ok floor ∧ n * 9950 / 10000 ≤ floor

/-- The proposal, if it is a swap of a non-zero amount, keeps to the quote. -/
def SwapKeepsQuote (s : Seen) (p : StrategyProposal) : Prop :=
  p.action = .str "swap" → stringToBigInt p.amountIn ≠ some 0 →
    KeepsQuote s p.revenueEvent p.tokenOut p.minAmountOut

/-- The decision of the LLM, if it is asked: its answer keeps to the quote where it is a swap or a
hold, and where there is none the quoted token is sCSPR or liquidity is added. -/
def LLMKeepsQuote (s : Seen) (event : RevenueEvent) : Prop :=
  match s.deciding with
  | some out => readAction (out.ownField "action") = .str "swap" →
      KeepsQuote s event (out.ownField "token_out") (out.ownField "min_amount_out")
  | none => s.quotedToken = .str "sCSPR" ∨ addsLiquidity s.priceImpact s.signal = .ok true

/-- What keeps every swap to its quote: the cycle is held, an action is forced, there is nothing
to swap, or the LLM is not asked or keeps to the quote. -/
def QuoteKept (cfg : Config) (input : AnalystInput) (s : Seen) : Prop :=
  (∃ cb, s.breaker = some cb ∧ cb.tripped = true) ∨ input.forceAction.truthy = true ∨
    stringToBigInt input.revenueEvent.amount = some 0 ∨ asksLLM cfg input = false ∨
    LLMKeepsQuote s input.revenueEvent

section

variable {cfg : Config} {input : AnalystInput} {s : Seen} {m : Market} {d d' : Decision}

lemma keepsQuote_lessSlippage {event : RevenueEvent} {n : ℤ} {tokenOut : Value}
    (htoken : tokenOut = s.quotedToken)
    (hn : ∀ k, (s.amountOut event).toBigInt = .ok k → k = n) :
    KeepsQuote s event tokenOut (.str (toString (lessSlippage n))) := by
  refine ⟨htoken, fun k hk => ⟨lessSlippage n, toBigInt_toString _, ?_⟩⟩
  rw [hn k hk]
  exact floor_le_lessSlippage n

lemma keepsQuote_forced {minAmountOut : String}
    (hm : s.Shows input.revenueEvent m) (htoken : d'.tokenOut = m.selectedTokenOut)
    (hmin : applySlippage m.quote.amountOut (1 / 2) = .ok minAmountOut)
    (hout : d'.minAmountOut = .str minAmountOut) :
    KeepsQuote s input.revenueEvent d'.tokenOut d'.minAmountOut := by
  obtain ⟨n, hn, rfl⟩ := applySlippage_eq_ok.1 hmin
  rw [hout]
  refine keepsQuote_lessSlippage (htoken.trans hm.token) fun k hk => ?_
  rw [← hm.amountOut, hn] at hk
  exact (Except.ok.inj hk).symm

lemma keepsQuote_of_decideHeuristic {h : Choice} (hm : s.Shows input.revenueEvent m)
    (hh : decideHeuristic m.quote m.signal m.selectedTokenOut = .ok h)
    (hswap : h.action = .str "swap") :
    KeepsQuote s input.revenueEvent h.tokenOut h.minAmountOut := by
  rcases decideHeuristic_eq_ok hh with ⟨-, rationale, rfl⟩ | ⟨-, n, token, rationale, hn, -, rfl⟩
  · simp at hswap
  · refine keepsQuote_lessSlippage hm.token fun k hk => ?_
    rw [← hm.amountOut, hn] at hk
    exact (Except.ok.inj hk).symm

/-- The fallback of the LLM swaps where the test fails, and keeps to a quote for sCSPR only. -/
lemma keepsQuote_fallback_iff {ctx : LLMContext} (hm : s.Shows input.revenueEvent m)
    (hquote : ctx.quote = m.quote) (hsignal : ctx.signal = m.signal)
    (hd : heuristicDecision ctx = .ok d) :
    (readAction d.action = .str "swap" →
        KeepsQuote s input.revenueEvent d.tokenOut d.minAmountOut) ↔
      s.quotedToken = .str "sCSPR" ∨ addsLiquidity s.priceImpact s.signal = .ok true := by
  have hseen : s.signal = m.signal := by
    obtain ⟨paid, hpaid, hdata⟩ := hm.paid
    rw [Seen.signal, hpaid, hdata]
    rfl
  have hadds : addsLiquidity ctx.quote.priceImpact ctx.signal =
      addsLiquidity s.priceImpact s.signal := by
    rw [hquote, hsignal, hm.priceImpact, hseen]
  rcases heuristicDecision_eq_ok hd with ⟨htest, rationale, c, -, rfl⟩ |
    ⟨htest, n, rationale, c, hn, -, rfl⟩
  · refine iff_of_true (fun hswap => ?_) (Or.inr (hadds ▸ htest))
    simp [readAction, Value.is] at hswap
  · rw [← hadds, htest]
    have hswaps : readAction (Value.str "swap") = .str "swap" := rfl
    constructor
    · intro hkeeps
      exact Or.inl (hkeeps hswaps).token.symm
    · rintro (htoken | hfalse) -
      · refine keepsQuote_lessSlippage htoken.symm fun k hk => ?_
        rw [← hm.amountOut, ← hquote] at hk
        have := toBigInt_or_zero hk
        rw [hn] at this
        exact (Except.ok.inj this).symm
      · cases hfalse

/-- A decision that no action overrides keeps to the quote unless the LLM is asked and does not. -/
lemma Decides.keepsQuote_iff (hm : s.Shows input.revenueEvent m) (h : Decides cfg input s m d) :
    (d.action = .str "swap" → KeepsQuote s input.revenueEvent d.tokenOut d.minAmountOut) ↔
      asksLLM cfg input = false ∨ LLMKeepsQuote s input.revenueEvent := by
  cases h with
  | heuristic hasks hh hconf hc =>
    exact iff_of_true (keepsQuote_of_decideHeuristic hm hh) (Or.inl hasks)
  | llm hasks hout hr =>
    rw [LLMKeepsQuote, hout, hasks]
    simp [ofLLMOutput]
  | fallback hasks hanswer hout hquote hsignal hd hr =>
    rw [LLMKeepsQuote, hout, hasks]
    simpa using keepsQuote_fallback_iff hm hquote hsignal hd

lemma truthy_of_is {v : Value} {text : String} (h : v.is text = true) (htext : text ≠ "") :
    v.truthy = true := by
  by_contra hnot
  rw [Bool.not_eq_true] at hnot
  rw [is_eq_false_of_not_truthy text hnot htext] at h
  cases h

lemma swapKeepsQuote_of_zero {p : StrategyProposal} (h : p.amountIn = "0") : SwapKeepsQuote s p := by
  intro _ hzero
  rw [h] at hzero
  exact absurd (by decide) hzero

/-- A proposal keeps to the quote if and only if something keeps it. -/
lemma Proposes.swapKeepsQuote_iff {p : StrategyProposal} (h : Proposes cfg input s p) :
    SwapKeepsQuote s p ↔ QuoteKept cfg input s := by
  cases h with
  | @held cb hcb ht =>
    exact iff_of_true (swapKeepsQuote_of_zero rfl) (Or.inl ⟨cb, hcb, ht⟩)
  | @decided cb m d d' amountIn pair hcb ht hm hd hforce =>
    cases forces_of_applyForceAction hforce with
    | hold hhold hconf =>
      have htruthy := truthy_of_is hhold (by decide)
      exact iff_of_true (swapKeepsQuote_of_zero rfl) (Or.inr (Or.inl htruthy))
    | stake hstake haction hconf =>
      have htruthy := truthy_of_is hstake (by decide)
      refine iff_of_true (fun hswap => ?_) (Or.inr (Or.inl htruthy))
      change d'.action = .str "swap" at hswap
      rw [haction] at hswap
      simp at hswap
    | quoted htruthy hhold htoken hmin hout hconf =>
      exact iff_of_true (fun _ _ => keepsQuote_forced hm htoken hmin hout) (Or.inr (Or.inl htruthy))
    | free hfree =>
      have htripped : ¬ ∃ cb, s.breaker = some cb ∧ cb.tripped = true := by
        rintro ⟨cb', hcb', ht'⟩
        rw [hcb] at hcb'
        cases hcb'
        rw [ht] at ht'
        cases ht'
      rw [QuoteKept, hfree, ← hd.keepsQuote_iff hm]
      simp only [htripped, Bool.false_eq_true, false_or]
      by_cases hzero : stringToBigInt input.revenueEvent.amount = some 0
      · exact iff_of_true (fun _ hne => absurd hzero hne) (Or.inl hzero)
      · simp [SwapKeepsQuote, toProposal, hzero]

end

/-- A proposal of the analyst, if it is a swap of a non-zero amount, buys the token that the quote
was taken for, at no less than the quoted amount minus half a percent, if and only if the cycle
is held, an action is forced, there is nothing to swap, the LLM is not asked, or its answer, or
else the hard-coded token of its fallback, keeps to the quote. -/
theorem swap_keeps_quote_iff {X : Type} {cfg : Config} {input : AnalystInput}
    {f : X → (op : Op) → Ans op × X} {x : X} {p : StrategyProposal}
    (h : (playAnalyst cfg input f x).2.2.1 = .ok p) :
    SwapKeepsQuote (Seen.of (playAnalyst cfg input f x).1) p ↔
      QuoteKept cfg input (Seen.of (playAnalyst cfg input f x).1) :=
  (proposes_of_playAnalyst h).swapKeepsQuote_iff

/-! ### A careful answer and a careless one -/

/-- An answer that swaps into a token for at least an amount. -/
def swapAnswer (tokenOut minAmountOut : String) : Value :=
  .obj [("action", .str "swap"), ("token_out", .str tokenOut),
    ("min_amount_out", .str minAmountOut), ("confidence", .num (.finite 90))]

/-- An answer that keeps to the quote of one for one. -/
theorem swap_keeps_quote_careful :
    ∃ p, (playAnswering (swapAnswer "sCSPR" "995000000")).2.2.1 = .ok p ∧
      SwapKeepsQuote (Seen.of (playAnswering (swapAnswer "sCSPR" "995000000")).1) p := by
  refine ⟨_, rfl, ?_⟩
  have hp : (playAnswering (swapAnswer "sCSPR" "995000000")).2.2.1 = .ok _ := rfl
  refine (swap_keeps_quote_iff hp).2 (Or.inr (Or.inr (Or.inr (Or.inr ?_))))
  refine fun _ => ⟨rfl, fun n hn => ⟨995000000, by decide, ?_⟩⟩
  have hquote : (Value.str "1000000000").toBigInt = .ok n := hn
  obtain rfl : 1000000000 = n := by
    have : (Value.str "1000000000").toBigInt = .ok 1000000000 := by decide
    rw [this] at hquote
    exact Except.ok.inj hquote
  decide

/-- The answer of the LLM is not checked: it may swap into another token than the quoted one,
without a floor. -/
theorem careless_answer_is_proposed :
    ¬ ∀ (cfg : Config) (input : AnalystInput) (X : Type) (f : X → (op : Op) → Ans op × X) (x : X)
      (p : StrategyProposal), (playAnalyst cfg input f x).2.2.1 = .ok p →
        SwapKeepsQuote (Seen.of (playAnalyst cfg input f x).1) p := by
  intro h
  have hp : (playAnswering (swapAnswer "RUG" "0")).2.2.1 = .ok _ := rfl
  have hkeeps := (h _ _ _ _ _ _ hp rfl (by decide)).token
  have hquoted : Value.str "RUG" = .str "sCSPR" := hkeeps
  simp at hquoted

end ArwaAgent
