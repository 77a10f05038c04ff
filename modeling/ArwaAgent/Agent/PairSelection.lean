import Mathlib.Data.Prod.Lex
import ArwaAgent.Agent.PairSelector
import ArwaAgent.Agent.Scenario
import ArwaAgent.Lib.Outcome
import ArwaAgent.Lib.Ranking

/-!
# Which pair is selected

The tools may answer in any way and from any outside state; `reports` collects what they say of
the pairs of the exchange that trade CSPR, in the order in which they are asked about.

A pair qualifies if it has CSPR on one side, is excluded in neither order of its tokens, is quoted
with a price impact of at most the highest one, and the analysis does not warn of it.  The code
reads two things differently: an impact of zero counts as a missing one, and a pair is excluded
under one order only.  `selectBestPair_correct_iff` says when the pair that it selects is the best
one all the same.
-/

namespace ArwaAgent

open Js Effects Effects.Code Ranking

/-! ### The pairs of the exchange -/

/-- The tokens of a pair that names both. -/
def tokensOf (p : Value) : Option (String × String) :=
  match tokenA p, tokenB p with
  | .ok (.str a), .ok (.str b) => if a = "" ∨ b = "" then none else some (a, b)
  | _, _ => none

/-- The label under which the exchange lists a pair. -/
def labelOf (p : Value) : Option String :=
  (tokensOf p).map fun t => s!"{t.1}/{t.2}"

/-- The token that a pair trades for CSPR. -/
def otherToken (p : Value) : Option String :=
  (tokensOf p).bind fun t =>
    if t.1 = "CSPR" then some t.2 else if t.2 = "CSPR" then some t.1 else none

/-- The pair of CSPR and a token is excluded, in one order or the other. -/
def SelectPairInput.Excludes (input : SelectPairInput) (out : String) : Prop :=
  s!"CSPR/{out}" ∈ input.excluded ∨ s!"{out}/CSPR" ∈ input.excluded

/-- The pair trades CSPR, and is not excluded under its label. -/
def listed (input : SelectPairInput) (p : Value) : Bool :=
  (otherToken p).isSome && (labelOf p).all fun label => !input.excluded.contains label

/-- A pair names its tokens with texts, if it names them. -/
def NamesTokens (p : Value) : Prop :=
  ∃ a b, tokenA p = .ok (.str a) ∧ tokenB p = .ok (.str b)

/-! ### What the tools say -/

/-- What the tools say of one pair that is asked about. -/
structure PairReport where
  pair : Value
  quote : Value
  analysis : Value
  details : Value

namespace PairReport

/-- What is learnt about the pair from the replies. -/
def candidate (input : SelectPairInput) (r : PairReport) : Except Error PairCandidate := do
  let impact ← parseImpact (impactStr r.quote)
  candidateOf input r.pair ((labelOf r.pair).getD "") (.str ((otherToken r.pair).getD "")) r.quote
    (orLarge impact) r.analysis r.details

/-- The impact is a number, the recommendation can be read, and the reserves and the fee are
integers. -/
structure Readable (r : PairReport) : Prop where
  impact : ∃ x, parseImpact (impactStr r.quote) = .ok x ∧ x ≠ .nan
  recommendation : ∃ s, (recommendationOf r.analysis).toStr = .ok s
  reservesIn : ∃ n, reservesIn r.details = .ok n
  reservesOut : ∃ n, reservesOut r.details = .ok n
  feeBps : ∃ n : ℤ, feeBpsOf r.details = .ok (.finite n)

end PairReport

section

variable {X : Type} (f : X → (op : ToolOp) → ToolAns op × X) (input : SelectPairInput)

/-- What a tool says when it is asked from the outside state `x`, and the state after it; null
when it cannot be reached, throws, or says what cannot be read. -/
def toolReply (x : X) (name : String) (args : Value) : Value × X :=
  match f x .getCsprTradeMcp with
  | (.error _, y) => (.null, y)
  | (.ok _, y) => match f y (.callTool name args) with
    | (.error _, z) => (.null, z)
    | (.ok res, z) => match parseToolResult res with
      | .error _ => (.null, z)
      | .ok v => (v, z)

/-- What the tools say of a pair. -/
def report (x : X) (p : Value) : PairReport × X :=
  let out := Value.str ((otherToken p).getD "")
  let quote := toolReply f x "get_quote" (.obj (quoteArguments input out))
  let analysis := toolReply f quote.2 "analyze_trade" (.obj (analysisArguments input out))
  let details := toolReply f analysis.2 "get_pair_details"
    (.obj [("pair", detailsPair p ((labelOf p).getD ""))])
  (⟨p, quote.1, analysis.1, details.1⟩, details.2)

/-- What the tools say of the pairs of a list that trade CSPR and are not excluded under their
labels. -/
def reports : X → List Value → List PairReport × X
  | x, [] => ([], x)
  | x, p :: ps =>
    if listed input p then
      let first := report f input x p
      let rest := reports first.2 ps
      (first.1 :: rest.1, rest.2)
    else reports x ps

/-- The reply with the list of pairs. -/
def pairsReply (x : X) : Value × X :=
  toolReply f x "get_pairs" (.obj [("limit", .num (.finite 50))])

/-- The pairs that the exchange has. -/
def exchangePairs (x : X) : List Value :=
  pairsOf (pairsReply f x).1

/-- What the tools say of the pairs of the exchange. -/
def pairReports (x : X) : List PairReport :=
  (reports f input (pairsReply f x).2 (exchangePairs f x)).1

/-- The pairs name their tokens, and what the tools say of them can be read. -/
structure ReadableReplies (x : X) : Prop where
  pairs : ∀ p ∈ exchangePairs f x, NamesTokens p
  reports : ∀ r ∈ pairReports f input x, r.Readable

end

section

variable {X : Type} {f : X → (op : ToolOp) → ToolAns op × X} {x : X} {input : SelectPairInput}
  {p : Value} {ps : List Value} {r : PairReport} {c d : PairCandidate} {out : String}

/-- A pair that is excluded in neither order is not excluded under its label. -/
lemma listed_of_not_excludes (hout : otherToken p = some out) (h : ¬ input.Excludes out) :
    listed input p = true := by
  obtain ⟨⟨a, b⟩, htokens, hcspr⟩ := Option.bind_eq_some_iff.1 hout
  rw [SelectPairInput.Excludes, not_or] at h
  simp only at hcspr
  have hlabel : s!"{a}/{b}" ∉ input.excluded := by
    split_ifs at hcspr with ha hb
    · cases hcspr
      exact ha ▸ h.1
    · cases hcspr
      have hwritten : s!"{out}/CSPR" = s!"{out}/{b}" := by
        rw [hb]
        show out ++ ("/" ++ "CSPR") = out ++ "/" ++ "CSPR"
        exact String.append_assoc.symm
      exact hwritten ▸ h.2
  simpa [listed, hout, labelOf, htokens] using hlabel

lemma otherToken_of_listed (h : listed input p = true) : ∃ out, otherToken p = some out :=
  Option.isSome_iff_exists.1 (Bool.and_eq_true_iff.1 h).1

/-- The code asks about the pairs that trade CSPR and are not excluded under their labels. -/
lemma eligible_eq (h : NamesTokens p) : eligible input p = .ok (if listed input p then
    some ((labelOf p).getD "", .str ((otherToken p).getD "")) else none) := by
  obtain ⟨a, b, ha, hb⟩ := h
  simp only [eligible, listed, labelOf, otherToken, tokensOf, ha, hb, ok_bind, Value.truthy,
    Value.is, Value.toStr]
  by_cases hnamed : a = "" ∨ b = ""
  · rcases hnamed with rfl | rfl <;> simp [pure, Except.pure]
  · rw [if_neg hnamed]
    rw [not_or] at hnamed
    by_cases hexcluded : s!"{a}/{b}" ∈ input.excluded
    · simp [hnamed, hexcluded, pure, Except.pure]
    · by_cases hfirst : a = "CSPR"
      · simp_all [pure, Except.pure]
      · by_cases hsecond : b = "CSPR" <;> simp_all [pure, Except.pure]

/-- Exactly the pairs that trade CSPR and are not excluded under their labels are reported on. -/
lemma map_pair_reports :
    (reports f input x ps).1.map PairReport.pair = ps.filter (listed input) := by
  induction ps generalizing x with
  | nil => rfl
  | cons p ps ih =>
    rw [reports, List.filter_cons]
    split
    · exact congrArg (p :: ·) ih
    · exact ih

lemma listed_of_mem (h : r ∈ pairReports f input x) : listed input r.pair = true := by
  have hmem : r.pair ∈ (exchangePairs f x).filter (listed input) :=
    map_pair_reports (f := f) ▸ List.mem_map_of_mem h
  exact (List.mem_filter.1 hmem).2

@[simp] lemma finish_callToolSafe (name : String) (args : Value) :
    finish f x (callToolSafe name args) =
      (.ok (toolReply f x name args).1, (toolReply f x name args).2) := by
  rw [callToolSafe, finish_tryCatch, finish_bind, finish_ask, toolReply]
  obtain ⟨connected, y⟩ := f x .getCsprTradeMcp
  cases connected with
  | error e => rfl
  | ok u =>
    simp only [id_eq, finish_bind, finish_ask, finish_result]
    obtain ⟨answer, z⟩ := f y (.callTool name args)
    cases answer with
    | error e => rfl
    | ok res =>
      dsimp only
      cases parseToolResult res <;> rfl

lemma finish_evaluatePair_none (hp : NamesTokens p) (h : listed input p = false) :
    finish f x (evaluatePair input p) = (.ok none, x) := by
  simp [evaluatePair, eligible_eq hp, h]

lemma finish_evaluatePair_some (hp : NamesTokens p) (h : listed input p = true)
    (hc : (report f input x p).1.candidate input = .ok c) :
    finish f x (evaluatePair input p) = (.ok (some c), (report f input x p).2) := by
  obtain ⟨impact, himpact, hc⟩ := bind_eq_ok.1 hc
  simp only [report] at himpact hc
  simp [evaluatePair, eligible_eq hp, h, report, himpact, hc]

lemma finish_evaluatePairs (hp : ∀ p ∈ ps, NamesTokens p)
    (hr : ∀ r ∈ (reports f input x ps).1, ∃ c, r.candidate input = .ok c) :
    finish f x (evaluatePairs input ps) =
      (.ok ((reports f input x ps).1.filterMap fun r => (r.candidate input).toOption),
        (reports f input x ps).2) := by
  induction ps generalizing x with
  | nil => rfl
  | cons p ps ih =>
    have hnames := hp p List.mem_cons_self
    have hps : ∀ q ∈ ps, NamesTokens q := fun q hq => hp q (.tail _ hq)
    cases hlisted : listed input p with
    | false =>
      have hreports : reports f input x (p :: ps) = reports f input x ps := by
        rw [reports, hlisted, if_neg Bool.false_ne_true]
      rw [hreports] at hr ⊢
      rw [evaluatePairs, finish_bind, finish_evaluatePair_none hnames hlisted]
      simp [ih hps hr]
    | true =>
      have hreports : reports f input x (p :: ps) = ((report f input x p).1 ::
          (reports f input (report f input x p).2 ps).1,
            (reports f input (report f input x p).2 ps).2) := by
        rw [reports, hlisted, if_pos rfl]
      rw [hreports] at hr ⊢
      obtain ⟨c, hc⟩ := hr _ List.mem_cons_self
      rw [evaluatePairs, finish_bind, finish_evaluatePair_some hnames hlisted hc]
      simp [ih hps fun r hmem => hr r (.tail _ hmem), hc, Except.toOption]

/-! ### What is learnt about a pair -/

lemma startsSafe_iff (safe : Bool) (reason : String) :
    "safe".toList.isPrefixOf (if safe then s!"safe: {reason}" else s!"skipped: {reason}").toList =
      safe := by
  cases safe with
  | true =>
    show "safe".toList.isPrefixOf ("safe: " ++ reason).toList = true
    rw [String.toList_append]
    rfl
  | false =>
    show "safe".toList.isPrefixOf ("skipped: " ++ reason).toList = false
    rw [String.toList_append]
    rfl

lemma candidateOf_eq_ok {label : String} {tokenOut quote analysis details : Value}
    {impactPct : Number}
    (h : candidateOf input p label tokenOut quote impactPct analysis details = .ok c) :
    (c.pair = label ∧ c.tokenIn = "CSPR" ∧ c.tokenOut = tokenOut ∧ c.contractPackageHash =
      (p.field? "contract_package_hash").orElse (p.field? "package_hash") ∧
      c.estimatedPriceImpact = impactStr quote ∧ c.recommendation = recommendationOf analysis) ∧
      (do estimateFeeApy (← reservesIn details) (← feeBpsOf details)) = .ok c.yieldApy ∧
      c.startsSafe = (impactPct.le input.maxImpact && !c.recommendation.is "high_risk") := by
  obtain ⟨n, hn, h⟩ := bind_eq_ok.1 h
  obtain ⟨m, -, h⟩ := bind_eq_ok.1 h
  obtain ⟨fee, hfee, h⟩ := bind_eq_ok.1 h
  obtain ⟨apy, hapy, h⟩ := bind_eq_ok.1 h
  obtain ⟨rec, -, h⟩ := bind_eq_ok.1 h
  cases h
  exact ⟨⟨rfl, rfl, rfl, rfl, rfl, rfl⟩, by rw [hn, ok_bind, hfee, ok_bind, hapy],
    startsSafe_iff _ _⟩

lemma exists_estimateFeeApy (n fee : ℤ) : ∃ apy, estimateFeeApy n (.finite fee) = .ok apy := by
  rw [estimateFeeApy]
  split_ifs
  · exact ⟨_, rfl⟩
  · rw [Value.toBigInt_intCast]
    exact ⟨_, rfl⟩

lemma isDouble_estimateFeeApy {n : ℤ} {fee apy : Number} (h : estimateFeeApy n fee = .ok apy) :
    apy.IsDouble ∧ apy ≠ .nan := by
  rw [estimateFeeApy] at h
  split_ifs at h
  · cases h
    exact ⟨⟨0, by simp⟩, fun h => nomatch h⟩
  · obtain ⟨m, -, h⟩ := bind_eq_ok.1 h
    cases h
    generalize hround : Number.round _ = x
    have hx : x ≠ .nan := hround ▸ Number.round_ne_nan _
    cases x with
    | nan => exact absurd rfl hx
    | infinity negative => exact ⟨trivial, fun h => nomatch h⟩
    | finite q =>
      rw [Number.div, if_neg (by norm_num)]
      exact ⟨Number.isDouble_round _, Number.round_ne_nan _⟩

end

/-! ### What should be selected -/

namespace PairReport

variable (input : SelectPairInput) (r s : PairReport)

/-- The price impact of the quote, as a number. -/
def impact : Number :=
  (parseImpact (impactStr r.quote)).toOption.getD .nan

/-- The fees of a year, in percent of the reserves. -/
def feeApy : Number :=
  (do estimateFeeApy (← ArwaAgent.reservesIn r.details) (← feeBpsOf r.details)).toOption.getD .nan

def isStaked : Bool :=
  otherToken r.pair = some STAKED_CSPR

/-- The impact is small enough, and there is no warning. -/
def WithinLimits : Prop :=
  r.impact.le input.maxImpact = true ∧ (recommendationOf r.analysis).is "high_risk" = false

/-- The pair trades CSPR and is excluded in neither order, and the replies are within limits. -/
def Qualifies : Prop :=
  ∃ out, otherToken r.pair = some out ∧ ¬ input.Excludes out ∧ r.WithinLimits input

def IsExcluded : Prop :=
  ∃ out, otherToken r.pair = some out ∧ input.Excludes out

/-- Staked CSPR comes first, and else the pair with the higher fees. -/
def AtLeast : Prop :=
  (s.isStaked = true → r.isStaked = true) ∧ (r.isStaked = false → s.feeApy.le r.feeApy = true)

/-- An impact of zero counts as a missing one, which is taken to be 999 percent. -/
def Overlooked : Prop :=
  r.impact = .finite 0 ∧ (Number.finite 999).le input.maxImpact = false

/-- The pair is among those that the code chooses from. -/
def Kept : Prop :=
  r.WithinLimits input ∧ ¬ r.Overlooked input

/-- Where a pair stands in the ranking. -/
def rank : Bool ×ₗ WithBot (WithTop ℚ) :=
  toLex (r.isStaked, r.feeApy.value)

end PairReport

/-- What a candidate says of a pair is what the exchange and the tools say. -/
structure PairCandidate.Describes (c : PairCandidate) (r : PairReport) : Prop where
  pair : labelOf r.pair = some c.pair
  tokenIn : c.tokenIn = "CSPR"
  tokenOut : ∃ out, otherToken r.pair = some out ∧ c.tokenOut = .str out
  contractPackageHash : c.contractPackageHash =
    (r.pair.field? "contract_package_hash").orElse (r.pair.field? "package_hash")
  estimatedPriceImpact : c.estimatedPriceImpact = impactStr r.quote
  recommendation : c.recommendation = recommendationOf r.analysis
  yieldApy : c.yieldApy = r.feeApy

/-- Nothing is selected if nothing qualifies, and else the best pair that does. -/
structure SelectsBest (input : SelectPairInput) (reports : List PairReport)
    (selected : Option PairCandidate) : Prop where
  none_iff : selected = none ↔ ∀ r ∈ reports, ¬ r.Qualifies input
  best : ∀ c, selected = some c → ∃ r ∈ reports, c.Describes r ∧ r.Qualifies input ∧
    ∀ s ∈ reports, s.Qualifies input → r.AtLeast s

/-- What is read differently makes no difference: an excluded pair that is seen all the same comes
behind a pair that qualifies and is seen, in the ranking or, at the same rank, in the list; and a
pair that qualifies and is overlooked is matched by one that is seen. -/
structure ReadingsHarmless (input : SelectPairInput) (reports : List PairReport) : Prop where
  excluded : ∀ before r after, reports = before ++ r :: after → r.WithinLimits input →
    ¬ r.Overlooked input → r.IsExcluded input → ∃ s, s.Qualifies input ∧ ¬ s.Overlooked input ∧
      (s ∈ reports ∧ r.rank < s.rank ∨ s ∈ before ∧ r.rank ≤ s.rank)
  overlooked : ∀ r ∈ reports, r.Qualifies input → r.Overlooked input →
    ∃ s ∈ reports, s.Qualifies input ∧ ¬ s.Overlooked input ∧ s.AtLeast r

section

variable {X : Type} {f : X → (op : ToolOp) → ToolAns op × X} {x : X} {input : SelectPairInput}
  {r s t : PairReport} {a b c : PairCandidate} {reports : List PairReport}

/-- A candidate describes the report that it is made from, its estimate is a number, and the code
keeps it if the report is within the limits and not overlooked. -/
structure WellRead (input : SelectPairInput) (r : PairReport) (c : PairCandidate) : Prop where
  candidate : r.candidate input = .ok c
  describes : c.Describes r
  isDouble : c.yieldApy.IsDouble
  ne_nan : c.yieldApy ≠ .nan
  isSafe_iff : c.isSafe = true ↔ r.Kept input

lemma finite_zero_le_of_large {y : Number} (h : (Number.finite 999).le y = true) :
    (Number.finite 0).le y = true := by
  cases y with
  | nan => exact h
  | infinity negative => exact h
  | finite q => simp_all [Number.le]; linarith

lemma orLarge_le {impact y : Number} (hnum : impact ≠ .nan) :
    (orLarge impact).le y = true ↔
      impact.le y = true ∧ ¬ (impact = .finite 0 ∧ (Number.finite 999).le y = false) := by
  rw [orLarge]
  by_cases hzero : impact = .finite 0
  · subst hzero
    rw [if_neg (by decide)]
    simpa using finite_zero_le_of_large
  · have htruthy : impact.truthy = true := by
      cases impact with
      | nan => exact absurd rfl hnum
      | infinity negative => rfl
      | finite q => exact decide_eq_true fun h => hzero (by rw [h])
    rw [if_pos htruthy]
    simp [hzero]

lemma PairReport.Readable.exists_wellRead (h : r.Readable) (hlisted : listed input r.pair = true) :
    ∃ c, WellRead input r c := by
  obtain ⟨impact, himpact, hnum⟩ := h.impact
  obtain ⟨rec, hrec⟩ := h.recommendation
  obtain ⟨n, hn⟩ := h.reservesIn
  obtain ⟨m, hm⟩ := h.reservesOut
  obtain ⟨fee, hfee⟩ := h.feeBps
  obtain ⟨apy, hapy⟩ := exists_estimateFeeApy n fee
  obtain ⟨out, hout⟩ := otherToken_of_listed hlisted
  obtain ⟨tokens, htokens, -⟩ := Option.bind_eq_some_iff.1 hout
  obtain ⟨c, hc⟩ : ∃ c, r.candidate input = .ok c :=
    ⟨_, by rw [PairReport.candidate, himpact, ok_bind, candidateOf, hn, ok_bind, hm, ok_bind, hfee,
      ok_bind, hapy, ok_bind, hrec, ok_bind]; rfl⟩
  have hread : r.impact = impact := by
    rw [PairReport.impact, himpact]
    rfl
  have hfields := hc
  rw [PairReport.candidate, himpact, ok_bind] at hfields
  obtain ⟨⟨hlabel, hin, htoken, hhash, hquote, hrecommendation⟩, hyield, hsafe⟩ :=
    candidateOf_eq_ok hfields
  have hdouble : c.yieldApy.IsDouble ∧ c.yieldApy ≠ .nan := by
    rw [hn, ok_bind, hfee, ok_bind] at hyield
    exact isDouble_estimateFeeApy hyield
  refine ⟨c, hc, ⟨?_, hin, ⟨out, hout, ?_⟩, hhash, hquote, hrecommendation, ?_⟩, hdouble.1,
    hdouble.2, ?_⟩
  · rw [hlabel, labelOf, htokens]
    rfl
  · rw [htoken, hout]
    rfl
  · rw [PairReport.feeApy, hyield]
    rfl
  · rw [PairCandidate.isSafe, hsafe, Bool.and_assoc, Bool.and_self, Bool.and_eq_true,
      orLarge_le hnum, PairReport.Kept, PairReport.WithinLimits, PairReport.Overlooked, hread,
      hrecommendation, Bool.not_eq_true']
    tauto

/-- Reports with the same candidate are alike. -/
lemma PairCandidate.Describes.congr (h : c.Describes r) (h' : c.Describes s) :
    otherToken r.pair = otherToken s.pair ∧ r.impact = s.impact ∧
      recommendationOf r.analysis = recommendationOf s.analysis ∧ r.feeApy = s.feeApy := by
  obtain ⟨out, hout, hc⟩ := h.tokenOut
  obtain ⟨out', hout', hc'⟩ := h'.tokenOut
  cases hc.symm.trans hc'
  refine ⟨hout.trans hout'.symm, ?_, h.recommendation.symm.trans h'.recommendation,
    h.yieldApy.symm.trans h'.yieldApy⟩
  rw [PairReport.impact, PairReport.impact, ← h.estimatedPriceImpact, h'.estimatedPriceImpact]

/-! ### The ranking -/

/-- Where a candidate stands in the ranking. -/
def PairCandidate.rank (c : PairCandidate) : Bool ×ₗ WithBot (WithTop ℚ) :=
  toLex (c.isStaked, c.yieldApy.value)

lemma PairCandidate.Describes.rank_eq (h : c.Describes r) : c.rank = r.rank := by
  obtain ⟨out, hout, hc⟩ := h.tokenOut
  have hstaked : c.isStaked = r.isStaked := by
    rw [PairCandidate.isStaked, PairReport.isStaked, hc, hout, Value.is]
    by_cases hs : out = STAKED_CSPR <;> simp [hs]
  rw [PairCandidate.rank, PairReport.rank, hstaked, h.yieldApy]

/-- The comparison of the code follows the ranking. -/
lemma compare_iff (ha : WellRead input r a) (hb : WellRead input s b) :
    (Number.finite 0).lt (a.compare b) = false ↔ b.rank ≤ a.rank := by
  have hsub := Number.zero_lt_sub hb.isDouble ha.isDouble hb.ne_nan ha.ne_nan
  rw [PairCandidate.compare, PairCandidate.rank, PairCandidate.rank, Prod.Lex.toLex_le_toLex]
  cases a.isStaked <;> cases b.isStaked <;> dsimp only
  · rw [if_neg (by simp), Bool.eq_false_iff, Ne, hsub]
    simp
  · rw [if_pos (by simp), if_pos rfl, if_neg Bool.false_ne_true,
      Number.finite_sub_finite (z := 1) (by norm_num) (by norm_num)]
    simp
  · rw [if_pos (by simp), if_pos rfl, if_neg Bool.false_ne_true,
      Number.finite_sub_finite (z := -1) (by norm_num) (by norm_num)]
    simp
  · rw [if_neg (by simp), Bool.eq_false_iff, Ne, hsub]
    simp

lemma atLeast_of_rank_le (hr : r.feeApy ≠ .nan) (hs : s.feeApy ≠ .nan) (h : s.rank ≤ r.rank) :
    r.AtLeast s := by
  rw [PairReport.rank, PairReport.rank, Prod.Lex.toLex_le_toLex] at h
  rw [PairReport.AtLeast, Number.le_iff_value hs hr]
  rcases h with h | ⟨heq, hle⟩
  · have : s.isStaked = false ∧ r.isStaked = true := Bool.lt_iff.1 h
    simp [this.1, this.2]
  · dsimp only at heq hle
    exact ⟨fun hstaked => heq ▸ hstaked, fun _ => hle⟩

lemma PairReport.AtLeast.of_rank_le (hr : r.feeApy ≠ .nan) (hs : s.feeApy ≠ .nan)
    (ht : t.feeApy ≠ .nan) (h : s.rank ≤ r.rank) (hst : s.AtLeast t) : r.AtLeast t := by
  obtain ⟨hstaked, hapy⟩ := atLeast_of_rank_le hr hs h
  refine ⟨fun ht => hstaked (hst.1 ht), fun hnr => ?_⟩
  have hns : s.isStaked = false := Bool.eq_false_iff.2 fun hs => by simp [hstaked hs] at hnr
  have hle := (Number.le_iff_value hs hr).1 (hapy hnr)
  have hle' := (Number.le_iff_value ht hs).1 (hst.2 hns)
  exact (Number.le_iff_value ht hr).2 (hle'.trans hle)

/-- What is learnt about the pairs that are reported on. -/
def candidatesOf (input : SelectPairInput) (reports : List PairReport) : List PairCandidate :=
  reports.filterMap fun r => (r.candidate input).toOption

lemma exists_wellRead_of_mem (h : ∀ r ∈ reports, ∃ c, WellRead input r c)
    (hc : c ∈ candidatesOf input reports) : ∃ r ∈ reports, WellRead input r c := by
  obtain ⟨r, hr, hcand⟩ := List.mem_filterMap.1 hc
  obtain ⟨d, hd⟩ := h r hr
  rw [hd.candidate] at hcand
  cases hcand
  exact ⟨r, hr, hd⟩

/-- The candidate at the head of the ranking is made from the first of the highest reports that the
code keeps. -/
lemma firstMax_rankPairs (h : ∀ r ∈ reports, ∃ c, WellRead input r c)
    (hc : (rankPairs ((candidatesOf input reports).filter PairCandidate.isSafe)).head? = some c) :
    ∃ r, WellRead input r c ∧
      FirstMax PairReport.rank (PairReport.Kept input) reports r := by
  have hmax : FirstMax PairCandidate.rank (fun c => c.isSafe = true)
      (candidatesOf input reports) c := by
    refine FirstMax.of_filter (firstMax_of_sorted (fun a ha b hb => ?_) hc)
    obtain ⟨r, -, hr⟩ := exists_wellRead_of_mem h (List.mem_filter.1 ha).1
    obtain ⟨s, -, hs⟩ := exists_wellRead_of_mem h (List.mem_filter.1 hb).1
    exact compare_iff hr hs
  have hread : ∀ r ∈ reports, ∃ c, (r.candidate input).toOption = some c ∧
      (c.isSafe = true ↔ r.Kept input) ∧ c.rank = r.rank := by
    intro r hr
    obtain ⟨c, hc⟩ := h r hr
    exact ⟨c, by rw [hc.candidate]; rfl, hc.isSafe_iff, hc.describes.rank_eq⟩
  obtain ⟨r, hr, hfirst⟩ := FirstMax.of_filterMap hread hmax
  obtain ⟨d, hd⟩ := h r hfirst.mem
  rw [hd.candidate] at hr
  cases hr
  exact ⟨r, hd, hfirst⟩

lemma rankPairs_eq_nil_iff (h : ∀ r ∈ reports, ∃ c, WellRead input r c) :
    (rankPairs ((candidatesOf input reports).filter PairCandidate.isSafe)).head? = none ↔
      ∀ r ∈ reports, ¬ r.Kept input := by
  rw [List.head?_eq_none_iff, rankPairs, ← List.length_eq_zero_iff, List.length_insertionSort,
    List.length_eq_zero_iff, List.filter_eq_nil_iff]
  refine ⟨fun hnone r hr hkept => ?_, fun hnone c hc hsafe => ?_⟩
  · obtain ⟨c, hc⟩ := h r hr
    exact hnone c (List.mem_filterMap.2 ⟨r, hr, by rw [hc.candidate]; rfl⟩) (hc.isSafe_iff.2 hkept)
  · obtain ⟨r, hr, hread⟩ := exists_wellRead_of_mem h hc
    exact hnone r hr (hread.isSafe_iff.1 hsafe)

/-- What the code keeps and drops wrongly is what it reads differently. -/
lemma harmless_iff (h : ∀ r ∈ reports, ∃ out, otherToken r.pair = some out) :
    Harmless PairReport.rank (PairReport.Kept input) (PairReport.Qualifies input)
      PairReport.AtLeast reports ↔ ReadingsHarmless input reports := by
  constructor
  · rintro ⟨hbehind, hmatched⟩
    refine ⟨fun before r after hl hlimits hseen hexcluded => ?_, fun r hr hgood hover => ?_⟩
    · have hbad : ¬ r.Qualifies input := by
        rintro ⟨out, hout, hnot, -⟩
        obtain ⟨out', hout', hex⟩ := hexcluded
        cases hout.symm.trans hout'
        exact hnot hex
      obtain ⟨s, hkept, hgood, hpos⟩ := hbehind before r after hl ⟨hlimits, hseen⟩ hbad
      exact ⟨s, hgood, hkept.2, hpos⟩
    · obtain ⟨s, hs, hkept, hgood, hle⟩ := hmatched r hr hgood fun hkept => hkept.2 hover
      exact ⟨s, hs, hgood, hkept.2, hle⟩
  · rintro ⟨hexcluded, hoverlooked⟩
    refine ⟨fun before r after hl hkept hbad => ?_, fun r hr hgood hdropped => ?_⟩
    · obtain ⟨out, hout⟩ := h r (hl ▸ List.mem_append_right _ List.mem_cons_self)
      have hex : input.Excludes out := by_contra fun hnot => hbad ⟨out, hout, hnot, hkept.1⟩
      obtain ⟨s, hgood, hseen, hpos⟩ :=
        hexcluded before r after hl hkept.1 hkept.2 ⟨out, hout, hex⟩
      obtain ⟨-, -, -, hlimits⟩ := id hgood
      exact ⟨s, ⟨hlimits, hseen⟩, hgood, hpos⟩
    · obtain ⟨-, -, -, hlimits⟩ := id hgood
      obtain ⟨s, hs, hgood, hseen, hle⟩ := hoverlooked r hr hgood
        (by_contra fun hseen => hdropped ⟨hlimits, hseen⟩)
      obtain ⟨-, -, -, hlimits⟩ := id hgood
      exact ⟨s, hs, ⟨hlimits, hseen⟩, hgood, hle⟩

lemma selectsBest_some_iff (hr : r ∈ reports) (hc : c.Describes r) :
    SelectsBest input reports (some c) ↔
      TakesBest (PairReport.Qualifies input) PairReport.AtLeast reports (some r) := by
  constructor
  · rintro ⟨hnone, hbest⟩
    refine ⟨by simpa using hnone, ?_⟩
    rintro _ ⟨⟩
    obtain ⟨s, -, hs, hgood, hall⟩ := hbest c rfl
    obtain ⟨hout, himpact, hrec, hapy⟩ := hs.congr hc
    refine ⟨hr, ?_, fun t ht htgood => ?_⟩
    · rw [PairReport.Qualifies, PairReport.WithinLimits] at hgood ⊢
      rwa [hout, himpact, hrec] at hgood
    · have hle := hall t ht htgood
      rw [PairReport.AtLeast, PairReport.isStaked, PairReport.isStaked] at hle ⊢
      rwa [hout, hapy] at hle
  · rintro ⟨hnone, hbest⟩
    refine ⟨by simpa using hnone, ?_⟩
    rintro _ ⟨⟩
    obtain ⟨-, hgood, hall⟩ := hbest r rfl
    exact ⟨r, hr, hc, hgood, hall⟩

/-- The head of the ranking is the best exactly if what is read differently makes no difference. -/
lemma selectsBest_iff (h : ∀ r ∈ reports, ∃ c, WellRead input r c) :
    SelectsBest input reports
        (rankPairs ((candidatesOf input reports).filter PairCandidate.isSafe)).head? ↔
      ReadingsHarmless input reports := by
  have hnan : ∀ r ∈ reports, r.feeApy ≠ .nan := by
    intro r hr
    obtain ⟨c, hc⟩ := h r hr
    exact hc.describes.yieldApy ▸ hc.ne_nan
  have hout : ∀ r ∈ reports, ∃ out, otherToken r.pair = some out := by
    intro r hr
    obtain ⟨c, hc⟩ := h r hr
    obtain ⟨out, hout, -⟩ := hc.describes.tokenOut
    exact ⟨out, hout⟩
  have hbest : ∀ best, (best = none ↔ ∀ r ∈ reports, ¬ r.Kept input) →
      (∀ r, best = some r → FirstMax PairReport.rank (PairReport.Kept input) reports r) →
      (TakesBest (PairReport.Qualifies input) PairReport.AtLeast reports best ↔
        ReadingsHarmless input reports) := by
    intro best hnone hsome
    rw [← harmless_iff hout]
    exact takesBest_iff (fun r hr s hs => atLeast_of_rank_le (hnan r hr) (hnan s hs))
      (fun r hr s hs t ht => PairReport.AtLeast.of_rank_le (hnan r hr) (hnan s hs) (hnan t ht))
      hnone hsome
  have hempty := rankPairs_eq_nil_iff h
  cases hhead : (rankPairs ((candidatesOf input reports).filter PairCandidate.isSafe)).head? with
  | none =>
    rw [← hbest none (by simpa using hempty.1 hhead) fun _ h => by cases h]
    refine ⟨fun hs => ⟨by simpa using hs.none_iff, fun _ h => ?_⟩,
      fun ht => ⟨by simpa using ht.none_iff, fun _ h => ?_⟩⟩
    · cases h
    · cases h
  | some c =>
    obtain ⟨r, hr, hfirst⟩ := firstMax_rankPairs h hhead
    rw [selectsBest_some_iff hfirst.mem hr.describes]
    refine hbest (some r) ⟨fun h => ?_, fun hnone => ?_⟩ ?_
    · cases h
    · exact absurd hfirst.is_kept (hnone r hfirst.mem)
    · rintro _ ⟨⟩
      exact hfirst

lemma pairsOf_of_not_truthy {v : Value} (h : v.truthy = false) : pairsOf v = [] := by
  cases v <;> first | rfl | cases h

lemma wellRead_pairReports (h : ReadableReplies f input x) :
    ∀ r ∈ pairReports f input x, ∃ c, WellRead input r c :=
  fun r hr => (h.reports r hr).exists_wellRead (listed_of_mem hr)

/-- The selection returns, and selects the head of the ranking. -/
lemma exists_selection (h : ReadableReplies f input x) :
    ∃ s, (finish f x (selectBestPair input)).1 = .ok s ∧ s.selected =
      (rankPairs ((candidatesOf input (pairReports f input x)).filter
        PairCandidate.isSafe)).head? := by
  have hpairs := finish_evaluatePairs h.pairs fun r hr =>
    (wellRead_pairReports h r hr).imp fun _ hc => hc.candidate
  rw [selectBestPair, finish_bind, finish_callToolSafe]
  dsimp only
  rw [← pairsReply]
  cases htruthy : (pairsReply f x).1.truthy with
  | false =>
    have hnil : pairReports f input x = [] := by
      rw [pairReports, exchangePairs, pairsOf_of_not_truthy htruthy]
      rfl
    rw [hnil]
    exact ⟨_, rfl, rfl⟩
  | true =>
    rw [if_neg (by simp), finish_bind, ← exchangePairs, hpairs]
    dsimp only
    rw [← pairReports, ← candidatesOf]
    cases rankPairs ((candidatesOf input (pairReports f input x)).filter PairCandidate.isSafe) with
    | nil => exact ⟨_, rfl, rfl⟩
    | cons selected rest => exact ⟨_, rfl, rfl⟩

/-- The pairs reported on are those of the exchange that trade CSPR and are not excluded under
their labels, and all that may qualify are among them.  Of these, the best is selected exactly if
what the code reads differently makes no difference. -/
theorem selectBestPair_correct_iff (h : ReadableReplies f input x) :
    (pairReports f input x).map PairReport.pair = (exchangePairs f x).filter (listed input) ∧
    (∀ p out, otherToken p = some out → ¬ input.Excludes out → listed input p = true) ∧
    ((∃ s, (finish f x (selectBestPair input)).1 = .ok s ∧
      SelectsBest input (pairReports f input x) s.selected) ↔
        ReadingsHarmless input (pairReports f input x)) := by
  refine ⟨map_pair_reports, fun p out => listed_of_not_excludes, ?_⟩
  obtain ⟨s, hs, hselected⟩ := exists_selection h
  rw [← selectsBest_iff (wellRead_pairReports h), ← hselected]
  constructor
  · rintro ⟨s', hs', hbest⟩
    cases hs.symm.trans hs'
    exact hbest
  · exact fun hbest => ⟨s, hs, hbest⟩

end

/-! ### An exchange with one pair -/

def csprPair (token : String) : Value :=
  .obj [("token_a", .str "CSPR"), ("token_b", .str token)]

/-- An exchange that quotes a pair with staked CSPR. -/
def quotingExchange (impact : String) (x : Unit) (op : ToolOp) : ToolAns op × Unit :=
  (match op with
  | .agent op => openMarket op
  | .getCsprTradeMcp => .ok ()
  | .callTool name _ => .ok (.obj [("structuredContent",
    if name = "get_pairs" then .arr [csprPair "sCSPR"]
    else if name = "get_quote" then .obj [("price_impact", .str impact)]
    else if name = "analyze_trade" then .obj [("recommendation", .str "proceed")]
    else .obj [("reserve_a", .str "5000000"), ("reserve_b", .str "4000000"),
      ("fee_bps", .num (.finite 30))])]), x)

/-- 1 CSPR, with the limits that the code assumes. -/
def plainInput : SelectPairInput :=
  ⟨"1000000000", none, none⟩

lemma readable_quotingExchange {impact : String}
    (h : parseFloat (removeFirst impact '%') ≠ .nan) :
    ReadableReplies (quotingExchange impact) plainInput () := by
  refine ⟨fun p hp => ?_, fun r hr => ?_⟩
  · obtain rfl := List.mem_singleton.1 hp
    exact ⟨"CSPR", "sCSPR", rfl, rfl⟩
  · obtain rfl := List.mem_singleton.1 hr
    exact ⟨⟨_, rfl, h⟩, ⟨_, rfl⟩, ⟨5000000, by rfl⟩, ⟨4000000, by rfl⟩, ⟨30, by rfl⟩⟩

lemma not_isExcluded_plainInput (r : PairReport) : ¬ r.IsExcluded plainInput := by
  rintro ⟨out, -, h | h⟩ <;> exact absurd h List.not_mem_nil

/-- The pair is reported on, and it is selected when it is quoted with an impact of half a
percent. -/
theorem selectBestPair_correct_iff_half_percent :
    (pairReports (quotingExchange "0.5%") plainInput ()).map PairReport.pair = [csprPair "sCSPR"] ∧
    ∃ s, (finish (quotingExchange "0.5%") () (selectBestPair plainInput)).1 = .ok s ∧
      SelectsBest plainInput (pairReports (quotingExchange "0.5%") plainInput ()) s.selected := by
  have hnum : parseFloat (removeFirst "0.5%" '%') ≠ .nan := by decide +kernel
  have himpact : (pairReports (quotingExchange "0.5%") plainInput ()).all
      (fun r => r.impact ≠ .finite 0) = true := by decide +kernel
  obtain ⟨hpairs, -, hiff⟩ := selectBestPair_correct_iff (readable_quotingExchange hnum)
  refine ⟨hpairs, hiff.2 ⟨?_, ?_⟩⟩
  · exact fun _ r _ _ _ _ h => absurd h (not_isExcluded_plainInput r)
  · exact fun r hr _ h => absurd h.1 (of_decide_eq_true (List.all_eq_true.1 himpact r hr))

/-- Quoted without any impact, it is not. -/
theorem zero_impact_is_overlooked :
    ¬ ∀ (X : Type) (f : X → (op : ToolOp) → ToolAns op × X) (x : X) (input : SelectPairInput),
      ReadableReplies f input x →
        ∃ s, (finish f x (selectBestPair input)).1 = .ok s ∧
          SelectsBest input (pairReports f input x) s.selected := by
  intro h
  have hnum : parseFloat (removeFirst "0%" '%') ≠ .nan := by decide +kernel
  have hnothing : ((finish (quotingExchange "0%") () (selectBestPair plainInput)).1.toOption.map
      fun s => s.selected.isNone) = some true := by decide +kernel
  have hlimits : (pairReports (quotingExchange "0%") plainInput ()).any
      (fun r => otherToken r.pair = some "sCSPR" && (r.impact.le plainInput.maxImpact &&
        !(recommendationOf r.analysis).is "high_risk")) = true := by
    decide +kernel
  obtain ⟨s, hs, hbest⟩ := h Unit (quotingExchange "0%") () plainInput
    (readable_quotingExchange hnum)
  rw [hs] at hnothing
  obtain ⟨r, hr, hr'⟩ := List.any_eq_true.1 hlimits
  rw [Bool.and_eq_true, Bool.and_eq_true, Bool.not_eq_true', decide_eq_true_eq] at hr'
  have hnone : s.selected = none := Option.isNone_iff_eq_none.1 (Option.some.inj hnothing)
  have hplain : ¬ plainInput.Excludes "sCSPR" := by
    rintro (h | h) <;> exact absurd h List.not_mem_nil
  exact hbest.none_iff.1 hnone r hr ⟨"sCSPR", hr'.1, hplain, hr'.2⟩

end ArwaAgent
