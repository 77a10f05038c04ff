import ArwaAgent.Agent.Heuristics
import ArwaAgent.Agent.AuditTrace
import ArwaAgent.Agent.Influence
import ArwaAgent.Lib.Outcome

/-!
# Where the two heuristics agree

Without a key for the LLM the analyst decides by its own heuristic, with the confidence of
the signal.  With a key and an LLM that cannot be reached it decides by the fallback, with a
token and a confidence of its own.  The actions and the floors are always the same; the
tokens are when sCSPR has been selected, and the confidences when the fallback does not
change that of the signal.
-/

namespace ArwaAgent

open Js Effects Effects.Code

/-- Both decisions agree, or neither is taken. -/
def SameDecision : Except Error Decision → Except Error Decision → Prop
  | .ok d, .ok d' => d.action = d'.action ∧ d.tokenOut = d'.tokenOut ∧
      d.minAmountOut = d'.minAmountOut ∧ d.confidence = d'.confidence
  | .error _, .error _ => True
  | _, _ => False

/-- Where the heuristics agree, for a signal with the confidence `c`: neither decides; or sCSPR
has been selected, and the confidence is at least 60 where liquidity is added, and 50 where the
amount of the quote can be read and is swapped. -/
def HeuristicsAgree (m : Market) (c : ℚ) : Prop :=
  match addsLiquidity m.quote.priceImpact m.signal with
  | .error _ => True
  | .ok true => m.selectedTokenOut = .str "sCSPR" ∧ 60 ≤ c
  | .ok false =>
    match (m.quote.amountOut.or (.str "0")).toBigInt with
    | .error _ => True
    | .ok _ => m.selectedTokenOut = .str "sCSPR" ∧ c = 50 ∧
        m.quote.amountOut.toBigInt.isOk = true

section

variable {X : Type} {cfg : Config} {input : AnalystInput} {account : Value} {m : Market}
  {f : X → (op : Op) → Ans op × X} {x : X} {c : ℚ}

/-! ### The confidences -/

lemma field_confidence {signal : Value} (h : signal.ownField "confidence" = .num (.finite c)) :
    signal.field "confidence" = .ok (.num (.finite c)) := by
  cases signal with
  | undefined | null => simp [Value.ownField] at h
  | _ => exact congrArg Except.ok h

lemma clamp_confidence (hlo : 0 ≤ c) (hhi : c ≤ 100) :
    clamp ((Value.num (.finite c)).orElse (.num (.finite 0))) (.finite 0) (.finite 100) =
      .ok (.finite c) := by
  have hnum : ((Value.num (.finite c)).orElse (.num (.finite 0))).toNumber = .ok (.finite c) := rfl
  rw [clamp, hnum, ok_bind, Number.finite_min_finite, Number.finite_max_finite, inf_of_le_right hhi,
    sup_of_le_right hlo]
  rfl

lemma finite_eq_max_sixty_iff : Number.finite c = (Number.finite 60).max (.finite c) ↔ 60 ≤ c := by
  rw [Number.finite_max_finite, Number.finite.injEq, eq_comm, sup_eq_right]

/-- Ten less than the confidence, but at least 50, is the confidence only when it is 50. -/
lemma finite_eq_max_fifty_iff (hhi : c ≤ 100) :
    Number.finite c = (Number.finite 50).max ((Number.finite c).sub (.finite 10)) ↔ c = 50 := by
  constructor
  · intro h
    have hge : ¬ c < 50 := by
      have := Number.finite_max_lt (le_refl (50 : ℚ)) ((Number.finite c).sub (.finite 10))
      rw [← h, Number.finite_lt_finite, decide_eq_false_iff_not] at this
      exact this
    obtain ⟨r, hr, hle⟩ := Number.round_le_add_one (q := c - 10) (by linarith) (by linarith)
    have hsub : (Number.finite c).sub (.finite 10) = .finite r := hr
    rw [hsub, Number.finite_max_finite, Number.finite.injEq] at h
    -- the rounded difference is below the confidence
    rcases max_choice (50 : ℚ) r with hmax | hmax
    · rw [h, hmax]
    · rw [hmax] at h
      linarith
  · rintro rfl
    have hsub : (Number.finite 50).sub (.finite 10) = .finite 40 := by
      have : Number.round ((40 : ℤ) : ℚ) = .finite ((40 : ℤ) : ℚ) := Number.round_intCast (by norm_num)
      have hdiff : (50 : ℚ) - 10 = ((40 : ℤ) : ℚ) := by norm_num
      rw [Number.sub, hdiff, this]
      norm_num
    rw [hsub, Number.finite_max_finite]
    norm_num

/-! ### The two decisions -/

/-- Without a key the analyst takes the decision of its heuristic, with the confidence of the
signal. -/
lemma decideStrategy_without_key (hkey : cfg.llmApiKey.getD "" = "")
    (hconf : m.signal.ownField "confidence" = .num (.finite c)) (hlo : 0 ≤ c) (hhi : c ≤ 100) :
    outcome f x () (decideStrategy cfg input account m : Agent Unit Decision) =
      decideHeuristic m.quote m.signal m.selectedTokenOut >>= fun h =>
        .ok { h with confidence := .num (.finite c) } := by
  rw [decideStrategy, if_pos (by simp [hkey]), outcome_result_bind]
  refine congrArg _ (funext fun h => ?_)
  rw [outcome_result_bind, field_confidence hconf, ok_bind, outcome_result_bind,
    clamp_confidence hlo hhi, ok_bind]
  rfl

/-- With a key and an LLM that fails it takes the decision of the fallback. -/
lemma decideStrategy_with_failed_llm (hkey : cfg.llmApiKey.getD "" ≠ "")
    (hforce : input.forceHeuristic = false)
    (hfail : ∀ x ctx, ∃ e, (f x (.callLLM ctx)).1 = .error e) :
    ∃ ctx : LLMContext, ctx.quote = m.quote ∧ ctx.signal = m.signal ∧
      outcome f x () (decideStrategy cfg input account m : Agent Unit Decision) =
        heuristicDecision ctx >>= fun d => d.rationale.toStr >>= fun rationale =>
          .ok { d with
            action := readAction d.action
            rationale := .str ("[LLM] " ++ rationale) } := by
  refine ⟨⟨account, m.quote, m.signal, m.portfolio, input.revenueEvent⟩, rfl, rfl, ?_⟩
  rw [decideStrategy, if_neg (by simp [hkey, hforce])]
  generalize (⟨account, m.quote, m.signal, m.portfolio, input.revenueEvent⟩ : LLMContext) = ctx
  obtain ⟨e, he⟩ := hfail x ctx
  have hnull : ¬ Value.null.truthy = true := by decide
  simp only [outcome, decideStrategyWithLLM, toProgram_bind, toProgram_tryCatch, toProgram_ask,
    toProgram_result, toProgram_pure, Program.call_bind, Program.done_bind, Program.play, he,
    id_eq, if_neg hnull]
  cases heuristicDecision ctx with
  | error e => rfl
  | ok d =>
    simp only [ok_bind, Program.done_bind]
    cases d.rationale.toStr <;> rfl

/-! ### Agreement -/

lemma sameDecision_of_fail {a b : Except Error Decision} (ha : ∀ d, a ≠ .ok d)
    (hb : ∀ d, b ≠ .ok d) : SameDecision a b := by
  cases a with
  | ok d => exact absurd rfl (ha d)
  | error e =>
    cases b with
    | ok d => exact absurd rfl (hb d)
    | error e => trivial

lemma not_sameDecision_of_fail {a : Except Error Decision} {d : Decision} (ha : ∀ d, a ≠ .ok d) :
    ¬ SameDecision a (.ok d) := by
  cases a with
  | ok d => exact absurd rfl (ha d)
  | error e => exact id

lemma bind_ne_ok {α β : Type} {x : Except Error α} {k : α → Except Error β}
    (h : ∀ a, x ≠ .ok a) (b : β) : x >>= k ≠ .ok b := by
  intro hb
  obtain ⟨a, ha, -⟩ := bind_eq_ok.1 hb
  exact h a ha

/-- The decision of the heuristic, with the confidence of the signal. -/
def ownDecision (m : Market) (c : ℚ) : Except Error Decision :=
  decideHeuristic m.quote m.signal m.selectedTokenOut >>= fun h =>
    .ok { h with confidence := .num (.finite c) }

/-- The decision of the fallback, as it is passed on. -/
def fallbackDecision (ctx : LLMContext) : Except Error Decision :=
  heuristicDecision ctx >>= fun d => d.rationale.toStr >>= fun rationale =>
    .ok { d with
      action := readAction d.action
      rationale := .str ("[LLM] " ++ rationale) }

section

variable {ctx : LLMContext} (hquote : ctx.quote = m.quote) (hsignal : ctx.signal = m.signal)
  (hconf : m.signal.ownField "confidence" = .num (.finite c))

include hquote hsignal

lemma sameDecision_of_error {e : Error}
    (hadds : addsLiquidity m.quote.priceImpact m.signal = .error e) :
    SameDecision (ownDecision m c) (fallbackDecision ctx) := by
  refine sameDecision_of_fail (bind_ne_ok fun h hh => ?_) (bind_ne_ok fun d hd => ?_)
  · rcases decideHeuristic_eq_ok hh with ⟨hadds', -⟩ | ⟨hadds', -⟩ <;>
      (rw [hadds] at hadds'; cases hadds')
  · rcases heuristicDecision_eq_ok hd with ⟨hadds', -⟩ | ⟨hadds', -⟩ <;>
      (rw [hquote, hsignal, hadds] at hadds'; cases hadds')

lemma sameDecision_unreadable {e : Error}
    (hadds : addsLiquidity m.quote.priceImpact m.signal = .ok false)
    (hn : (m.quote.amountOut.or (.str "0")).toBigInt = .error e) :
    SameDecision (ownDecision m c) (fallbackDecision ctx) := by
  refine sameDecision_of_fail (bind_ne_ok fun h hh => ?_) (bind_ne_ok fun d hd => ?_)
  · rcases decideHeuristic_eq_ok hh with ⟨hadds', -⟩ | ⟨-, k, token, rationale, hk, -⟩
    · rw [hadds] at hadds'
      cases hadds'
    · have := toBigInt_or_zero hk
      rw [hn] at this
      cases this
  · rcases heuristicDecision_eq_ok hd with ⟨hadds', -⟩ | ⟨-, k, rationale, c, hk, -⟩
    · rw [hquote, hsignal, hadds] at hadds'
      cases hadds'
    · rw [hquote, hn] at hk
      cases hk

include hconf

lemma sameDecision_adds_iff (hadds : addsLiquidity m.quote.priceImpact m.signal = .ok true) :
    SameDecision (ownDecision m c) (fallbackDecision ctx) ↔
      m.selectedTokenOut = .str "sCSPR" ∧ 60 ≤ c := by
  obtain ⟨rationale, hown⟩ : ∃ rationale, decideHeuristic m.quote m.signal m.selectedTokenOut =
      .ok ⟨.str "add_liquidity", m.selectedTokenOut, .str "0", rationale⟩ :=
    decideHeuristic_adds hadds
  rw [← hquote, ← hsignal] at hadds
  have hc : ((ctx.signal.ownField "confidence").orElse (.num (.finite 70))).toNumber =
      .ok (.finite c) := by
    rw [hsignal, hconf]
    rfl
  obtain ⟨rationale', hfallback⟩ := heuristicDecision_adds hadds hc
  have hown' : ownDecision m c = .ok ⟨⟨.str "add_liquidity", m.selectedTokenOut, .str "0",
      rationale⟩, .num (.finite c)⟩ := by
    rw [ownDecision, hown, ok_bind]
  have hfallback' : fallbackDecision ctx = .ok ⟨⟨.str "add_liquidity", .str "sCSPR", .str "0",
      .str ("[LLM] " ++ rationale')⟩, .num ((Number.finite 60).max (.finite c))⟩ := by
    rw [fallbackDecision, hfallback, ok_bind]
    rfl
  rw [hown', hfallback']
  simp [SameDecision, finite_eq_max_sixty_iff]

lemma sameDecision_swaps_iff {n : ℤ} (hhi : c ≤ 100)
    (hadds : addsLiquidity m.quote.priceImpact m.signal = .ok false)
    (hn : (m.quote.amountOut.or (.str "0")).toBigInt = .ok n) :
    SameDecision (ownDecision m c) (fallbackDecision ctx) ↔
      m.selectedTokenOut = .str "sCSPR" ∧ c = 50 ∧ m.quote.amountOut.toBigInt.isOk = true := by
  have hadds' : addsLiquidity ctx.quote.priceImpact ctx.signal = .ok false := by
    rw [hquote, hsignal, hadds]
  have hc : ((ctx.signal.ownField "confidence").orElse (.num (.finite 60))).toNumber =
      .ok (.finite c) := by
    rw [hsignal, hconf]
    rfl
  obtain ⟨rationale', hfallback⟩ := heuristicDecision_swaps hadds' (by rw [hquote, hn]) hc
  have hfallback' : fallbackDecision ctx = .ok ⟨⟨.str "swap", .str "sCSPR",
      .str (toString (lessSlippage n)), .str ("[LLM] " ++ rationale')⟩,
      .num ((Number.finite 50).max ((Number.finite c).sub (.finite 10)))⟩ := by
    rw [fallbackDecision, hfallback, ok_bind]
    rfl
  rw [hfallback']
  by_cases hreads : (∃ token, m.selectedTokenOut.toStr = .ok token) ∧
      ∃ k, m.quote.amountOut.toBigInt = .ok k
  · obtain ⟨⟨token, htoken⟩, k, hk⟩ := hreads
    obtain rfl : k = n := by
      have := toBigInt_or_zero hk
      rw [hn] at this
      exact (Except.ok.inj this).symm
    obtain ⟨rationale, hown⟩ := decideHeuristic_swaps hadds hk htoken
    have hown' : ownDecision m c = .ok ⟨⟨.str "swap", m.selectedTokenOut,
        .str (toString (lessSlippage k)), rationale⟩, .num (.finite c)⟩ := by
      rw [ownDecision, hown, ok_bind]
    rw [hown', hk]
    simp [SameDecision, finite_eq_max_fifty_iff hhi, Except.isOk, Except.toBool]
  · refine iff_of_false (not_sameDecision_of_fail (bind_ne_ok fun h hh => hreads ?_)) ?_
    · rcases decideHeuristic_eq_ok hh with ⟨hadds', -⟩ | ⟨-, k, token, rationale, hk, htoken, -⟩
      · rw [hadds] at hadds'
        cases hadds'
      · exact ⟨⟨token, htoken⟩, k, hk⟩
    · rintro ⟨htoken, -, hok⟩
      exact hreads ⟨⟨"sCSPR", by rw [htoken]; rfl⟩, exists_of_isOk hok⟩

/-- The heuristics agree exactly where the condition says. -/
lemma sameDecision_iff (hhi : c ≤ 100) :
    SameDecision (ownDecision m c) (fallbackDecision ctx) ↔ HeuristicsAgree m c := by
  rw [HeuristicsAgree]
  cases hadds : addsLiquidity m.quote.priceImpact m.signal with
  | error e => exact iff_of_true (sameDecision_of_error hquote hsignal hadds) trivial
  | ok adds =>
    cases adds with
    | true => exact sameDecision_adds_iff hquote hsignal hconf hadds
    | false =>
      cases hn : (m.quote.amountOut.or (.str "0")).toBigInt with
      | error e => exact iff_of_true (sameDecision_unreadable hquote hsignal hadds hn) trivial
      | ok n => exact sameDecision_swaps_iff hquote hsignal hconf hhi hadds hn

end

end

/-- Without a key for the LLM, and with a key and an LLM that fails, the analyst takes the same
decision, or none, on a signal with a confidence between 0 and 100, if and only if sCSPR has been
selected and the confidence is at least 60 where liquidity is added and 50 where the quoted
amount is swapped, or neither heuristic decides.  Where both decide, both decisions are on the
same side of the gate if and only if the confidence is at least 50. -/
theorem heuristics_agree_iff {X Y : Type} {cfg cfg' : Config} {input : AnalystInput}
    {account : Value} {m : Market} {f : X → (op : Op) → Ans op × X} {x : X}
    {g : Y → (op : Op) → Ans op × Y} {y : Y} {c : ℚ} (hkey : cfg.llmApiKey.getD "" = "")
    (hkey' : cfg'.llmApiKey.getD "" ≠ "") (hforce : input.forceHeuristic = false)
    (hfail : ∀ y ctx, ∃ e, (g y (.callLLM ctx)).1 = .error e)
    (hconf : m.signal.ownField "confidence" = .num (.finite c)) (hlo : 0 ≤ c) (hhi : c ≤ 100) :
    let own := outcome f x () (decideStrategy cfg input account m : Agent Unit Decision)
    let fallback := outcome g y () (decideStrategy cfg' input account m : Agent Unit Decision)
    (SameDecision own fallback ↔ HeuristicsAgree m c) ∧
      ∀ d d', own = .ok d → fallback = .ok d' →
        (belowGate d.confidence = belowGate d'.confidence ↔ 50 ≤ c) := by
  intro own fallback
  obtain ⟨ctx, hquote, hsignal, hfallback⟩ : ∃ ctx : LLMContext, ctx.quote = m.quote ∧
      ctx.signal = m.signal ∧ fallback = fallbackDecision ctx :=
    decideStrategy_with_failed_llm hkey' hforce hfail
  have hown : own = ownDecision m c := decideStrategy_without_key hkey hconf hlo hhi
  rw [hown, hfallback]
  refine ⟨sameDecision_iff hquote hsignal hconf hhi, fun d d' hd hd' => ?_⟩
  obtain ⟨h, -, hd⟩ := bind_eq_ok.1 hd
  cases hd
  obtain ⟨d₀, hd₀, hd'⟩ := bind_eq_ok.1 hd'
  obtain ⟨rationale, -, hd'⟩ := bind_eq_ok.1 hd'
  cases hd'
  obtain ⟨c', -, hc', -, hlow⟩ := heuristicDecision_fields hd₀
  have hpasses : belowGate (.num c') = false := hlow
  have hgate : belowGate (.num (.finite c)) = decide (c < 50) := rfl
  rw [hc', hpasses, hgate, decide_eq_false_iff_not, not_lt]

/-! ### A bullish signal -/

/-- A market with a low price impact and a bullish signal of some confidence. -/
def bullishMarket (c : ℚ) : Market where
  selectedTokenOut := .str "sCSPR"
  quote := ⟨.str "1000", .str "0.1%", "CSPR/sCSPR", 0⟩
  portfolio := .null
  signal := .obj [("utilization_forecast", .str "higher"), ("confidence", .num (.finite c))]
  x402Proof := none

/-- How the analyst decides on it, in a working market without an LLM that answers. -/
def decideOnBullish (cfg : Config) (c : ℚ) : Except Error Decision :=
  outcome (fun (x : Unit) op => (openMarket op, x)) () ()
    (decideStrategy cfg freeInput (.str "0") (bullishMarket c) : Agent Unit Decision)

lemma addsLiquidity_bullishMarket (c : ℚ) :
    addsLiquidity (bullishMarket c).quote.priceImpact (bullishMarket c).signal = .ok true := by
  have hadds : (addsLiquidity (.str "0.1%")
      (.obj [("utilization_forecast", .str "higher")])).toOption = some true := by decide +kernel
  have hsame : addsLiquidity (.str "0.1%") (bullishMarket c).signal =
      addsLiquidity (.str "0.1%") (.obj [("utilization_forecast", .str "higher")]) := rfl
  show addsLiquidity (.str "0.1%") (bullishMarket c).signal = .ok true
  rw [hsame]
  cases hx : addsLiquidity (.str "0.1%") (.obj [("utilization_forecast", .str "higher")]) with
  | error e =>
    rw [hx] at hadds
    cases hadds
  | ok adds =>
    rw [hx] at hadds
    exact congrArg Except.ok (Option.some.inj hadds)

/-- With a confidence of 60 the heuristics agree. -/
theorem heuristics_agree_sixty :
    SameDecision (decideOnBullish plainConfig 60) (decideOnBullish llmConfig 60) := by
  have hfail : ∀ (y : Unit) ctx, ∃ e,
      ((fun (x : Unit) op => (openMarket op, x)) y (.callLLM ctx)).1 = Except.error e :=
    fun _ _ => ⟨_, rfl⟩
  refine (heuristics_agree_iff (by decide) (by decide) rfl hfail rfl ?_ ?_).1.2 ?_
  · norm_num
  · norm_num
  · rw [HeuristicsAgree, addsLiquidity_bullishMarket]
    exact ⟨rfl, le_refl _⟩

/-- With a confidence of 40 the fallback has more of it, and passes the gate. -/
theorem heuristics_disagree_forty :
    ¬ ∀ (cfg cfg' : Config) (input : AnalystInput) (account : Value) (m : Market) (X : Type)
      (f : X → (op : Op) → Ans op × X) (x : X) (c : ℚ), cfg.llmApiKey.getD "" = "" →
        cfg'.llmApiKey.getD "" ≠ "" → input.forceHeuristic = false →
        (∀ y ctx, ∃ e, (f y (.callLLM ctx)).1 = .error e) →
        m.signal.ownField "confidence" = .num (.finite c) → 0 ≤ c → c ≤ 100 →
        SameDecision (outcome f x () (decideStrategy cfg input account m : Agent Unit Decision))
          (outcome f x () (decideStrategy cfg' input account m : Agent Unit Decision)) := by
  intro h
  have hsame : SameDecision (decideOnBullish plainConfig 40) (decideOnBullish llmConfig 40) :=
    h _ _ _ _ _ _ _ _ 40 (by decide) (by decide) rfl (fun _ _ => ⟨_, rfl⟩) rfl (by norm_num)
      (by norm_num)
  have hown : decideOnBullish plainConfig 40 = ownDecision (bullishMarket 40) 40 :=
    decideStrategy_without_key (by decide) rfl (by norm_num) (by norm_num)
  obtain ⟨ctx, hquote, hsignal, hfallback⟩ : ∃ ctx : LLMContext,
      ctx.quote = (bullishMarket 40).quote ∧ ctx.signal = (bullishMarket 40).signal ∧
        decideOnBullish llmConfig 40 = fallbackDecision ctx :=
    decideStrategy_with_failed_llm (by decide) rfl fun _ _ => ⟨_, rfl⟩
  rw [hown, hfallback,
    sameDecision_adds_iff hquote hsignal rfl (addsLiquidity_bullishMarket 40)] at hsame
  norm_num at hsame

end ArwaAgent
