import ArwaAgent.Lib.Transition
import ArwaAgent.Odra.Basic

/-!
# Runs of a contract

A contract is a storage type, a type of calls and a function that executes a call.
A run starts from the storage its constructor leaves and takes calls of arbitrary
accounts at arbitrary block times.  A reverted call leaves no trace; an accepted one
is appended to the history with the event it emitted.  What properties speak of,
such as the sum of all accepted deposits, is read off the history.
-/

namespace ArwaAgent

/-- What a call that does not revert leaves behind. -/
structure Commit (σ ε : Type) where
  contract : σ
  event : Option ε

/-- A call and the environment it is made in. -/
structure Request (κ : Type) where
  env : Env
  call : κ

/-- An accepted call. -/
structure Invocation (κ ε : Type) extends Request κ where
  event : Option ε

/-- The storage of a contract, and the calls accepted so far, oldest first. -/
structure Chain (σ κ ε : Type) where
  contract : σ
  history : List (Invocation κ ε)

namespace Chain

variable {σ κ ε : Type} (exec : σ → Env → κ → Except Revert (Commit σ ε))

/-- One step of a run. -/
def step (w : Chain σ κ ε) (q : Request κ) : Chain σ κ ε :=
  match exec w.contract q.env q.call with
  | .ok c => { contract := c.contract, history := w.history ++ [{ q with event := c.event }] }
  | .error _ => w

/-- The runs from the storage `s₀`. -/
def system (s₀ : σ) : TransitionSystem (Chain σ κ ε) (Request κ) :=
  .ofFun { contract := s₀, history := [] } (step exec)

/-- The contract after a list of calls. -/
def after (s₀ : σ) (qs : List (Request κ)) : Chain σ κ ε :=
  qs.foldl (step exec) { contract := s₀, history := [] }

variable {exec} {s₀ : σ} {w : Chain σ κ ε}

theorem reachable_after (s₀ : σ) (qs : List (Request κ)) :
    (system exec s₀).Reachable (after exec s₀ qs) :=
  TransitionSystem.reachable_foldl _ _ qs

lemma step_of_ok {q : Request κ} {c : Commit σ ε} (h : exec w.contract q.env q.call = .ok c) :
    step exec w q =
      { contract := c.contract, history := w.history ++ [{ q with event := c.event }] } := by
  rw [step, h]

lemma step_cases (w : Chain σ κ ε) (q : Request κ) :
    (∃ c, exec w.contract q.env q.call = .ok c ∧ step exec w q =
        { contract := c.contract, history := w.history ++ [{ q with event := c.event }] }) ∨
      ∃ e, exec w.contract q.env q.call = .error e ∧ step exec w q = w := by
  cases h : exec w.contract q.env q.call with
  | ok c => exact Or.inl ⟨c, rfl, step_of_ok h⟩
  | error e => exact Or.inr ⟨e, rfl, by rw [step, h]⟩

/-- The induction rule for runs: accepted calls keep the invariant. -/
theorem invariant_via {ok : Chain σ κ ε → Request κ → Prop}
    {I : σ → List (Invocation κ ε) → Prop} (hinit : I s₀ [])
    (hstep : ∀ (w : Chain σ κ ε) (q : Request κ) (c : Commit σ ε), I w.contract w.history →
      ok w q → exec w.contract q.env q.call = .ok c →
      I c.contract (w.history ++ [{ q with event := c.event }]))
    (hw : (system exec s₀).ReachableVia ok w) : I w.contract w.history := by
  refine hw.invariant (I := fun w => I w.contract w.history) ?_ ?_
  · rintro w rfl
    exact hinit
  · rintro w q t hI hok rfl
    rcases @step_cases _ _ _ exec w q with ⟨c, hc, ht⟩ | ⟨-, -, ht⟩
    · rw [ht]
      exact hstep w q c hI hok hc
    · rw [ht]
      exact hI

theorem invariant {I : σ → List (Invocation κ ε) → Prop} (hinit : I s₀ [])
    (hstep : ∀ (w : Chain σ κ ε) (q : Request κ) (c : Commit σ ε), I w.contract w.history →
      exec w.contract q.env q.call = .ok c →
      I c.contract (w.history ++ [{ q with event := c.event }]))
    (hw : (system exec s₀).Reachable w) : I w.contract w.history :=
  invariant_via hinit (fun w q c hI _ hc => hstep w q c hI hc) hw

end Chain

end ArwaAgent
