import ArwaAgent.Agent.Proposal
import ArwaAgent.Agent.Protocol
import ArwaAgent.Agent.Scenario

/-!
# Which cycles leave an entry in the audit log

A cycle that returns has made one entry if it has run its executor, and none otherwise:
a cycle that the breaker holds, or whose confidence is below the gate, returns without
a trace.  Whether it does can be read off the answers that it gets (`skips`): the
breaker is tripped; or no action is forced and the confidence that decides, that of
the paid signal without an LLM and that of the LLM's answer with one, is below 50.  The
fallback of the LLM never is, nor is a forced action.
-/

namespace ArwaAgent

open Js Effects Effects.Code

/-- The call that makes an entry in the audit log. -/
def Op.isAuditLog : Op → Bool
  | .logStrategyToVault _ => true
  | _ => false

/-- A value that reads as a number below the gate. -/
def belowGate (v : Value) : Bool :=
  match v.toNumber with
  | .ok c => c.lt (.finite 50)
  | .error _ => false

/-- Without a forced action and without an LLM: a signal whose confidence is below the gate. -/
def lowSignal (cfg : Config) (input : CycleInput) (signal : Value) : Bool :=
  !input.forceAction.truthy && decide (cfg.llmApiKey.getD "" = "") &&
    belowGate ((signal.ownField "confidence").orElse (.num (.finite 0)))

/-- Without a forced action: an answer of the LLM whose confidence is below the gate. -/
def lowAnswer (input : CycleInput) (out : Value) : Bool :=
  !input.forceAction.truthy && out.truthy && belowGate (out.ownField "confidence")

/-- The answers after which a cycle returns without running its executor. -/
def skips (cfg : Config) (input : CycleInput) : (op : Op) → Ans op → Bool
  | .checkCircuitBreaker, cb => cb.tripped
  | .payAndFetchViaX402 _ _, .ok paid => lowSignal cfg input paid.data
  | .callLLM _, .ok out => lowAnswer input out
  | _, _ => false

/-- The number of entries made so far. -/
def logCount : Monitor Op Ans ℕ where
  allows := fun _ _ => True
  next := fun n op _ => n + if op.isAuditLog then 1 else 0

/-- Whether an answer has made the cycle skip its executor. -/
def skipLatch (cfg : Config) (input : CycleInput) : Monitor Op Ans Bool where
  allows := fun _ _ => True
  next := fun k op r => k || skips cfg input op r

/-! ### Entries and phases -/

/-- The call that ends the protocol is the one that makes the entry. -/
lemma next_eq_logged_iff {ph : Phase} {op : Op} (h : ph.allows op) (r : Ans op) :
    ph.next op r = .logged ↔ op.isAuditLog = true := by
  cases ph with
  | operator =>
    obtain rfl : op = .resetCircuitBreaker := h
    simp [Phase.next, Op.isAuditLog]
  | held => exact h.elim
  | logged => exact h.elim
  | analysing =>
    cases op <;> first | exact h.elim | skip
    case checkCircuitBreaker =>
      show (if r.tripped then Phase.held else .cleared) = .logged ↔ false = true
      split <;> simp
    all_goals simp [Phase.next, Op.isAuditLog]
  | cleared => cases op <;> first | exact h.elim | simp [Phase.next, Op.isAuditLog]
  | executing p => cases op <;> first | exact h.elim | simp [Phase.next, Op.isAuditLog]
  | recorded p o => cases op <;> first | exact h.elim | simp [Phase.next, Op.isAuditLog]

lemma runCycle_logCount (cfg : Config) (input : CycleInput) :
    Returns logCount 0 () (runCycle cfg input) fun n _ res =>
      n = if res.execution.isSome then 1 else 0 := by
  have hcycle := Meets.simulate (N := logCount)
    (R := fun ph n => (ph = .logged → n = 1) ∧ (ph ≠ .logged → n = 0)) ?_
    (runCycle_meets cfg input) ⟨(fun h => by cases h), fun _ => rfl⟩
  · refine hcycle.mono fun n l r h res hres => ?_
    obtain ⟨ph, ⟨hone, hzero⟩, hph⟩ := h
    have hiff := hph res hres
    by_cases hlogged : ph = .logged
    · rw [if_pos (hiff.1 hlogged), hone hlogged]
    · rw [if_neg (fun hsome => hlogged (hiff.2 hsome)), hzero hlogged]
  · rintro ph n op ⟨-, hzero⟩ hallows
    refine ⟨trivial, fun r _ => ⟨trivial, ?_⟩⟩
    have hiff := next_eq_logged_iff hallows r
    -- a phase that allows a call is not the last one
    have hn : n = 0 := hzero fun h => by rw [h] at hallows; exact hallows.elim
    refine ⟨fun h => ?_, fun h => ?_⟩
    · show n + (if op.isAuditLog then 1 else 0) = 1
      rw [hn, if_pos (hiff.1 h)]
    · show n + (if op.isAuditLog then 1 else 0) = 0
      rw [hn, if_neg (fun hlog => h (hiff.2 hlog))]

/-! ### What skips -/

section

variable {cfg : Config} {input : CycleInput} {L : Type}

lemma next_analysing {ph : Phase} {op : Op} {r : Ans op} (h : ph.allows op)
    (hnext : ph.next op r = .analysing) : ph = .analysing ∧ skips cfg input op r = false := by
  cases ph with
  | operator =>
    obtain rfl : op = .resetCircuitBreaker := h
    cases hnext
  | held => exact h.elim
  | logged => exact h.elim
  | analysing =>
    refine ⟨rfl, ?_⟩
    cases op <;> first | exact h.elim | rfl | skip
    case checkCircuitBreaker =>
      change (if r.tripped then Phase.held else .cleared) = .analysing at hnext
      split at hnext <;> cases hnext
  | cleared => cases op <;> first | exact h.elim | cases hnext
  | executing p => cases op <;> first | exact h.elim | cases hnext
  | recorded p o => cases op <;> first | exact h.elim | cases hnext

lemma stays_skipLatch {α : Type} {x : Agent L α} (hx : Stays cycleProtocol .analysing x) :
    Stays (skipLatch cfg input) false x := by
  intro l
  have hsim := Meets.simulate (N := skipLatch cfg input)
    (R := fun ph k => ph = .analysing → k = false) ?_ (hx l) fun _ => rfl
  · refine hsim.mono fun k l r h => ?_
    obtain ⟨ph, hk, rfl⟩ := h
    exact hk rfl
  · intro ph k op hk hallows
    refine ⟨trivial, fun r _ => ⟨trivial, fun hnext => ?_⟩⟩
    obtain ⟨hph, hskips⟩ := @next_analysing cfg input _ _ _ hallows hnext
    show (k || skips cfg input op r) = false
    rw [hk hph, hskips]
    rfl

/-- The phases of the executor. -/
def Phase.inExecutor : Phase → Prop
  | .executing _ | .recorded _ _ | .logged => True
  | _ => False

lemma next_inExecutor {ph : Phase} {op : Op} (hph : ph.inExecutor) (h : ph.allows op)
    (r : Ans op) : (ph.next op r).inExecutor ∧ skips cfg input op r = false := by
  cases ph with
  | operator => exact hph.elim
  | analysing => exact hph.elim
  | held => exact hph.elim
  | cleared => exact hph.elim
  | executing p => cases op <;> first | exact h.elim | exact ⟨trivial, rfl⟩
  | recorded p o => cases op <;> first | exact h.elim | exact ⟨trivial, rfl⟩
  | logged => exact h.elim

lemma runExecutor_skipLatch {p : StrategyProposal} :
    Stays (skipLatch cfg input) false (runExecutor cfg p) := by
  intro l
  have hsim := Meets.simulate (N := skipLatch cfg input)
    (R := fun ph k => ph.inExecutor ∧ k = false) ?_ (@runExecutor_meets cfg p l)
    ⟨trivial, rfl⟩
  · refine hsim.mono fun k l r h => ?_
    obtain ⟨ph, ⟨-, hk⟩, -⟩ := h
    exact hk
  · rintro ph k op ⟨hph, rfl⟩ hallows
    refine ⟨trivial, fun r _ => ⟨trivial, ?_⟩⟩
    exact next_inExecutor hph hallows r

/-! ### The decision and the gate -/

lemma skipLatch_ask {α : Type} {op : Op} {read : Ans op → Except Error α} {k : Bool}
    (h : ∀ r, skips cfg input op r = false) :
    Stays (skipLatch cfg input) k (ask op read : Agent L α) := by
  refine Stays.ask trivial fun r => ?_
  show (k || skips cfg input op r) = k
  rw [h r, Bool.or_false]

lemma skipLatch_ask_or {α : Type} {op : Op} {read : Ans op → Except Error α} {a : α} {k : Bool}
    (h : ∀ r, skips cfg input op r = false) :
    Stays (skipLatch cfg input) k
      (tryCatch (ask op read) fun _ => pure a : Agent L α) :=
  Stays.tryCatch (skipLatch_ask h) fun _ => Stays.pure _

/-- The market has been read with the signal that the latch has seen. -/
lemma readMarket_skipLatch {ai : AnalystInput} (l : L) :
    Returns (skipLatch cfg input) false l (readMarket ai : Agent L Market) fun k _ m =>
      k = lowSignal cfg input m.signal := by
  refine Returns.stays_bind (skipLatch_ask_or fun _ => rfl) fun l sel => ?_
  refine Returns.stays_bind (skipLatch_ask fun _ => rfl) fun l now => ?_
  refine Returns.stays_bind (skipLatch_ask_or fun _ => rfl) fun l quote => ?_
  refine Returns.stays_bind (skipLatch_ask_or fun _ => rfl) fun l folio => ?_
  refine Returns.ask_bind trivial fun r paid _ hpaid => ?_
  refine Returns.result_bind fun forecast _ => ?_
  refine Returns.result_bind fun _ _ => ?_
  refine Returns.result_bind fun confidence _ => ?_
  refine Returns.result_bind fun _ _ => ?_
  obtain rfl : r = .ok paid := hpaid
  exact Returns.pure (Bool.false_or _)

/-- What the latch says about a decision: a forced action clears it, else it compares the
confidence with the gate. -/
def Gated (input : CycleInput) (k : Bool) (d : Decision) : Prop :=
  if input.forceAction.truthy then k = false
  else ∀ c, d.confidence.toNumber = .ok c → k = c.lt (.finite 50)

lemma toNumber_num (c : Number) : (Value.num c).toNumber = .ok c := rfl

lemma belowGate_of_toNumber {v : Value} {c : Number} (h : v.toNumber = .ok c) :
    belowGate v = c.lt (.finite 50) := by
  rw [belowGate, h]

lemma gated_of_heuristicDecision {ctx : LLMContext} {d d' : Decision}
    (hd : heuristicDecision ctx = .ok d) (hconf : d'.confidence = d.confidence) :
    Gated input false d' := by
  obtain ⟨c, rationale, hc, -, hlow⟩ := heuristicDecision_fields hd
  rw [Gated]
  split
  · rfl
  · intro c' hc'
    rw [hconf, hc, toNumber_num, Except.ok.injEq] at hc'
    rw [← hc', hlow]

/-- The decision of the LLM, or of its fallback, is gated by the answer of the LLM. -/
lemma decideStrategyWithLLM_skipLatch {ctx : LLMContext} (l : L) :
    Returns (skipLatch cfg input) false l (decideStrategyWithLLM ctx : Agent L Decision)
      fun k _ d => Gated input k d := by
  refine Returns.ask_or_bind trivial fun r _ => ?_
  refine Returns.result_bind fun d hd => ?_
  refine Returns.pure ?_
  cases r with
  | error e => exact gated_of_heuristicDecision hd rfl
  | ok out =>
    change (if out.truthy then Except.ok (ofLLMOutput out) else heuristicDecision ctx) = .ok d at hd
    show Gated input (false || lowAnswer input out) _
    rw [Bool.false_or, lowAnswer]
    by_cases hout : out.truthy
    · rw [if_pos hout] at hd
      cases hd
      rw [hout, Bool.and_true, Gated]
      split
      · next hforce =>
        rw [hforce]
        rfl
      · next hforce =>
        intro c hc
        have hgate : belowGate (out.ownField "confidence") = c.lt (.finite 50) :=
          belowGate_of_toNumber hc
        rw [Bool.not_eq_true] at hforce
        rw [hforce, hgate]
        rfl
    · rw [if_neg hout] at hd
      rw [Bool.not_eq_true] at hout
      rw [hout, Bool.and_false, Bool.false_and]
      exact gated_of_heuristicDecision hd rfl

/-- The decision is gated by the answer that the latch has seen last. -/
lemma decideStrategy_skipLatch {ai : AnalystInput} {account : Value} {m : Market} (l : L)
    (hforce : ai.forceHeuristic = false) :
    Returns (skipLatch cfg input) (lowSignal cfg input m.signal) l
      (decideStrategy cfg ai account m : Agent L Decision) fun k _ d => Gated input k d := by
  rw [decideStrategy, hforce, Bool.false_or]
  by_cases hkey : cfg.llmApiKey.getD "" = ""
  · -- without an LLM the confidence is that of the signal, clamped
    rw [if_pos (decide_eq_true hkey)]
    refine Returns.result_bind fun h _ => ?_
    refine Returns.result_bind fun confidence hconf => ?_
    refine Returns.result_bind fun c hc => ?_
    refine Returns.pure ?_
    obtain ⟨n, hn, hclamp⟩ := bind_eq_ok.1 hc
    cases hclamp
    rw [Value.field_eq_ok hconf] at hn
    rw [Gated, lowSignal, belowGate_of_toNumber hn, decide_eq_true hkey]
    cases input.forceAction.truthy with
    | true => exact rfl
    | false =>
      intro c' hc'
      cases hc'
      exact (Number.clamp_lt (by norm_num) (by norm_num) n).symm
  · -- with one the signal does not count
    have hlow : lowSignal cfg input m.signal = false := by
      simp [lowSignal, hkey]
    rw [if_neg (by simpa using hkey), hlow]
    refine Returns.bind (decideStrategyWithLLM_skipLatch l) fun k l d hd => ?_
    refine Returns.result_bind fun rationale _ => ?_
    exact Returns.pure hd

/-- A forced action lifts the confidence above the gate. -/
lemma forcedConfidence_not_low {d : Decision} {v : Value} {c : Number}
    (hv : forcedConfidence d = .ok v) (hc : v.toNumber = .ok c) : c.lt (.finite 50) = false := by
  obtain ⟨n, -, hn⟩ := bind_eq_ok.1 hv
  cases hn
  rw [toNumber_num, Except.ok.injEq] at hc
  rw [← hc]
  exact Number.max_finite_lt (by norm_num) n

lemma confidence_of_forced {ai : AnalystInput} {m : Market} {d d' : Decision}
    {amountIn pair : String} (ht : ai.forceAction.truthy = true)
    (h : applyForceAction cfg ai m d = .ok (d', amountIn, pair)) :
    forcedConfidence d = .ok d'.confidence := by
  cases forces_of_applyForceAction h with
  | free hfree =>
    rw [hfree] at ht
    cases ht
  | hold _ hconf => exact hconf
  | stake _ _ hconf => exact hconf
  | quoted _ _ _ _ _ hconf => exact hconf

/-- What the latch says about the decision it says about the confidence after the forced
action. -/
lemma Gated.applyForceAction {ai : AnalystInput} {k : Bool} {m : Market} {d d' : Decision}
    {amountIn pair : String} {c : Number} (hd : Gated input k d)
    (hforce : ai.forceAction = input.forceAction)
    (h : applyForceAction cfg ai m d = .ok (d', amountIn, pair))
    (hc : d'.confidence.toNumber = .ok c) : k = c.lt (.finite 50) := by
  rw [Gated, ← hforce] at hd
  by_cases ht : ai.forceAction.truthy
  · rw [if_pos ht] at hd
    rw [hd, forcedConfidence_not_low (confidence_of_forced ht h) hc]
  · rw [if_neg ht] at hd
    rw [ArwaAgent.applyForceAction, if_pos (by simpa using ht)] at h
    cases h
    exact hd c hc

/-- When the analyst returns, the latch says whether the gate stops the proposal. -/
lemma runAnalyst_skipLatch {ai : AnalystInput} (l : L) (hforce : ai.forceAction = input.forceAction)
    (hheuristic : ai.forceHeuristic = false) :
    Returns (skipLatch cfg input) false l (runAnalyst cfg ai : Agent L StrategyProposal)
      fun k _ p => ∀ c, p.confidence.toNumber = .ok c → k = c.lt (.finite 50) := by
  refine Returns.stays_bind (stays_skipLatch readChain_stays) fun l account => ?_
  refine Returns.ask_bind trivial fun r cb _ hcb => ?_
  obtain rfl : r = cb := Except.ok.inj hcb
  show Returns _ (false || r.tripped) l (if r.tripped then _ else _) _
  rw [Bool.false_or]
  cases r.tripped with
  | true =>
    refine Returns.pure fun c hc => ?_
    cases hc
    decide
  | false =>
    refine Returns.bind (readMarket_skipLatch l) ?_
    rintro k l m rfl
    refine Returns.bind (decideStrategy_skipLatch l hheuristic) fun k l d hd => ?_
    refine Returns.result_bind fun forced hforced => ?_
    obtain ⟨d', amountIn, pair⟩ := forced
    exact Returns.pure fun c hc => hd.applyForceAction hforce hforced hc

lemma runCycle_skipLatch (cfg : Config) (input : CycleInput) :
    Returns (skipLatch cfg input) false () (runCycle cfg input) fun k _ res =>
      res.execution.isSome = !k := by
  refine Returns.stays_bind (stays_skipLatch readTokenBalance_stays) fun l tokenBalance => ?_
  refine Returns.bind (runAnalyst_skipLatch l rfl rfl) fun k l proposal hk => ?_
  refine Returns.result_bind fun confidence hconf => ?_
  rw [hk confidence hconf]
  cases confidence.lt (.finite 50) with
  | true => exact Returns.pure rfl
  | false =>
    refine Returns.ask_bind trivial fun _ _ _ _ => ?_
    refine Returns.stays_bind runExecutor_skipLatch fun l execution => ?_
    exact Returns.pure rfl

end

/-! ### Cycles against any environment -/

section

variable {X : Type}

/-- The calls of a cycle, the outside state it ends in, and how it ends, when `f` answers its
calls from the outside state. -/
def playCycle (cfg : Config) (input : CycleInput) (f : X → (op : Op) → Ans op × X) (x : X) :
    List (Event Op Ans X) × X × (Except Error CycleResult × Unit) :=
  Program.play f x ((runCycle cfg input).toProgram ())

lemma foldl_logCount (events : List (Event Op Ans X)) (n : ℕ) :
    events.foldl (fun n e => logCount.next n e.op e.ans) n =
      n + events.countP fun e => e.op.isAuditLog := by
  induction events generalizing n with
  | nil => rfl
  | cons e events ih =>
    rw [List.foldl_cons, ih, List.countP_cons]
    show n + (if e.op.isAuditLog then 1 else 0) + _ = _
    omega

lemma foldl_skipLatch (cfg : Config) (input : CycleInput) (events : List (Event Op Ans X))
    (k : Bool) : events.foldl (fun k e => (skipLatch cfg input).next k e.op e.ans) k =
      (k || events.any fun e => skips cfg input e.op e.ans) := by
  induction events generalizing k with
  | nil => exact (Bool.or_false k).symm
  | cons e events ih =>
    rw [List.foldl_cons, ih, List.any_cons, ← Bool.or_assoc]
    rfl

variable {cfg : Config} {input : CycleInput} {f : X → (op : Op) → Ans op × X} {x : X}

/-- A cycle that returns has made exactly one entry in the audit log if and only if no answer
has made it skip its executor. -/
theorem audit_entry_iff {res : CycleResult} (h : (playCycle cfg input f x).2.2.1 = .ok res) :
    (playCycle cfg input f x).1.countP (fun e => e.op.isAuditLog) = 1 ↔
      ∀ e ∈ (playCycle cfg input f x).1, skips cfg input e.op e.ans = false := by
  have hcount := Returns.play (fun _ _ _ _ => trivial) (runCycle_logCount cfg input) h
  have hskip := Returns.play (fun _ _ _ _ => trivial) (runCycle_skipLatch cfg input) h
  rw [foldl_logCount, Nat.zero_add] at hcount
  rw [foldl_skipLatch, Bool.false_or] at hskip
  rw [playCycle, hcount, hskip]
  simp

end

/-! ### Runs -/

/-- A cycle on a revenue event of 1 CSPR with a forced hold. -/
def heldInput : CycleInput :=
  ⟨⟨.finite 0, "1000000000", "0", "parking-lot-demo", "0", "demo-ref-001"⟩, "", .str "hold"⟩

/-- The theorem at work: a forced hold leaves its entry. -/
theorem audit_entry_iff_held :
    (playCycle plainConfig heldInput (fun (x : Unit) op => (openMarket op, x)) ()).1.countP
      (fun e => e.op.isAuditLog) = 1 := by
  have hok : (playCycle plainConfig heldInput (fun (x : Unit) op => (openMarket op, x))
      ()).2.2.1.isOk = true := by decide +kernel
  obtain ⟨res, hres⟩ := exists_of_isOk hok
  refine (audit_entry_iff hres).2 ?_
  decide +kernel

/-- The environment in which the breaker is tripped. -/
def trippedBreaker : Answers
  | .checkCircuitBreaker => ⟨true, "cooldown", .finite 60, 0, 1, 0⟩
  | op => openMarket op

/-- Not every cycle that returns has made an entry: one that the breaker holds makes none. -/
theorem held_cycle_leaves_no_entry :
    ¬ ∀ (cfg : Config) (input : CycleInput) (X : Type) (f : X → (op : Op) → Ans op × X) (x : X)
      (res : CycleResult), (playCycle cfg input f x).2.2.1 = .ok res →
        (playCycle cfg input f x).1.countP (fun e => e.op.isAuditLog) = 1 := by
  intro h
  have hok : (playCycle plainConfig heldInput (fun (x : Unit) op => (trippedBreaker op, x))
      ()).2.2.1.isOk = true := rfl
  obtain ⟨res, hres⟩ := exists_of_isOk hok
  have hcount := h plainConfig heldInput Unit _ () res hres
  revert hcount
  decide

end ArwaAgent
