import Mathlib.Data.List.Basic
import Mathlib.Data.List.Count

/-!
# A resource acquired on demand

Requests for a resource are served by attempts to acquire it: a request joins the attempt
that is under way, is answered with the resource that an attempt has acquired, and starts
an attempt of its own where all earlier ones have failed.  So at most one attempt has not
failed, whatever the order of the requests and of the outcomes of the attempts.
-/

namespace OnDemand

variable {α ε : Type*}

/-- An attempt: `pending` with the resource that it would acquire. -/
inductive Attempt (α ε : Type*)
  | pending (a : α)
  | done (a : α)
  | failed (e : ε)

namespace Attempt

/-- The attempt is under way. -/
def isPending : Attempt α ε → Bool
  | pending _ => true
  | _ => false

/-- The attempt has failed. -/
def isFailed : Attempt α ε → Bool
  | failed _ => true
  | _ => false

/-- An attempt as it begins; it may fail at once. -/
def start : Except ε α → Attempt α ε
  | .ok a => pending a
  | .error e => failed e

end Attempt

/-- What happens: a request, with what an attempt would begin with as the `n`-th one, or the
outcome of an attempt. -/
inductive Event (α ε : Type*)
  | request (make : ℕ → Except ε α)
  | succeed (n : ℕ)
  | fail (n : ℕ) (e : ε)

/-- How a request is answered: with the resource, or with an attempt to wait for. -/
inductive Reply (α : Type*)
  | value (a : α)
  | attempt (n : ℕ)
  deriving DecidableEq

/-- What a reply has come to. -/
def Reply.outcome (attempts : List (Attempt α ε)) : Reply α → Option (Except ε α)
  | .value a => some (.ok a)
  | .attempt n =>
    match attempts[n]? with
    | some (.done a) => some (.ok a)
    | some (.failed e) => some (.error e)
    | _ => none

/-- An attempt that is under way is settled. -/
def settle (attempts : List (Attempt α ε)) (n : ℕ) (outcome : α → Attempt α ε) :
    List (Attempt α ε) :=
  match attempts[n]? with
  | some (.pending a) => attempts.set n (outcome a)
  | _ => attempts

/-- The attempts after an event. -/
def step (attempts : List (Attempt α ε)) : Event α ε → List (Attempt α ε)
  | .request make =>
    if attempts.all Attempt.isFailed then attempts ++ [.start (make attempts.length)] else attempts
  | .succeed n => settle attempts n .done
  | .fail n e => settle attempts n fun _ => .failed e

/-- The reply to a request, where `k` attempts have failed before these ones. -/
def replyFrom : ℕ → List (Attempt α ε) → Reply α
  | k, [] => .attempt k
  | k, .failed _ :: attempts => replyFrom (k + 1) attempts
  | k, .pending _ :: _ => .attempt k
  | _, .done a :: _ => .value a

/-- The reply to a request. -/
def reply (attempts : List (Attempt α ε)) : Reply α :=
  replyFrom 0 attempts

/-- At most one attempt has not failed. -/
def Single (attempts : List (Attempt α ε)) : Prop :=
  attempts.countP (fun x => !x.isFailed) ≤ 1

variable {attempts : List (Attempt α ε)} {a : α} {n : ℕ}

/-! ### One attempt at a time -/

lemma Single.settle (h : Single attempts) (n : ℕ) (outcome : α → Attempt α ε) :
    Single (settle attempts n outcome) := by
  rw [OnDemand.settle]
  split
  next b hb =>
    obtain ⟨hn, hb⟩ := List.getElem?_eq_some_iff.1 hb
    have hlive : 0 < attempts.countP fun x => !x.isFailed :=
      List.countP_pos_iff.2 ⟨_, List.getElem_mem hn, by rw [hb]; rfl⟩
    have hpending : (!(Attempt.pending b : Attempt α ε).isFailed) = true := rfl
    rw [Single] at h ⊢
    rw [List.countP_set hn, hb, if_pos hpending]
    split <;> omega
  next => exact h

/-- An event keeps all attempts but one failed. -/
lemma Single.step (h : Single attempts) (e : Event α ε) : Single (step attempts e) := by
  cases e with
  | request make =>
    rw [OnDemand.step]
    split
    next hall =>
      have hnone : attempts.countP (fun x => !x.isFailed) = 0 :=
        List.countP_eq_zero.2 fun x hx => by simp [List.all_eq_true.1 hall x hx]
      rw [Single, List.countP_append, hnone, Nat.zero_add]
      exact List.countP_le_length
    next => exact h
  | succeed n => exact h.settle n _
  | fail n e => exact h.settle n _

lemma Single.countP_isPending_le (h : Single attempts) : attempts.countP Attempt.isPending ≤ 1 := by
  refine Nat.le_trans (List.countP_mono_left fun x _ hx => ?_) h
  cases x <;> first | rfl | cases hx

lemma Single.isFailed_of_cons {x : Attempt α ε} (h : Single (x :: attempts))
    (hx : x.isFailed = false) : ∀ y ∈ attempts, y.isFailed = true := by
  rw [Single, List.countP_cons_of_pos (by simp [hx])] at h
  have hnone := List.countP_eq_zero.1 (Nat.le_zero.1 (Nat.le_of_succ_le_succ h))
  intro y hy
  simpa using hnone y hy

lemma Single.tail {e : ε} (h : Single (.failed e :: attempts)) : Single attempts := by
  rwa [Single, List.countP_cons_of_neg (by simp [Attempt.isFailed])] at h

/-! ### Replies -/

lemma reply_of_done (h : Single attempts) (ha : .done a ∈ attempts) :
    reply attempts = .value a := by
  rw [reply]
  generalize 0 = k
  induction attempts generalizing k with
  | nil => cases ha
  | cons x attempts ih =>
    cases x with
    | failed e =>
      exact ih h.tail (by simpa using ha) (k + 1)
    | done b =>
      rcases List.mem_cons.1 ha with heq | hmem
      · cases heq
        rfl
      · exact absurd (h.isFailed_of_cons rfl _ hmem) (by simp [Attempt.isFailed])
    | pending b =>
      have hmem : .done a ∈ attempts := by simpa using ha
      exact absurd (h.isFailed_of_cons rfl _ hmem) (by simp [Attempt.isFailed])

lemma reply_of_pending (h : Single attempts) (ha : attempts[n]? = some (.pending a)) :
    reply attempts = .attempt n := by
  have hfrom : ∀ k, replyFrom k attempts = .attempt (k + n) := by
    induction attempts generalizing n with
    | nil => simp at ha
    | cons x attempts ih =>
      intro k
      cases n with
      | zero =>
        obtain rfl : x = .pending a := by simpa using ha
        rfl
      | succ n =>
        have hmem : attempts[n]? = some (.pending a) := by simpa using ha
        have hfailed : x.isFailed = true := by
          by_contra hx
          have htail := h.isFailed_of_cons (by simpa using hx) _ (List.mem_of_getElem? hmem)
          simp [Attempt.isFailed] at htail
        cases x with
        | failed e =>
          rw [replyFrom, ih h.tail hmem, Nat.add_assoc, Nat.add_comm 1]
        | _ => cases hfailed
  rw [reply, hfrom, Nat.zero_add]

/-- Where all attempts have failed, a request waits for a new one. -/
lemma reply_of_failed (h : ∀ x ∈ attempts, x.isFailed = true) :
    reply attempts = .attempt attempts.length := by
  have hfrom : ∀ k, replyFrom k attempts = .attempt (k + attempts.length) := by
    induction attempts with
    | nil => exact fun k => rfl
    | cons x attempts ih =>
      intro k
      cases x with
      | failed e =>
        rw [replyFrom, ih (fun y hy => h y (List.mem_cons_of_mem _ hy)), List.length_cons,
          Nat.add_assoc, Nat.add_comm 1]
      | _ => cases h _ (List.mem_cons_self ..)
  rw [reply, hfrom, Nat.zero_add]

lemma step_request_of_failed (h : ∀ x ∈ attempts, x.isFailed = true) (make : ℕ → Except ε α) :
    step attempts (.request make) = attempts ++ [.start (make attempts.length)] := by
  rw [step, if_pos (List.all_eq_true.2 h)]

lemma outcome_of_succeed (a : α) : Reply.outcome
    (step (attempts ++ [.pending a]) (.succeed attempts.length)) (.attempt attempts.length) =
      some (.ok a) := by
  have hlast : (attempts ++ [Attempt.pending a])[attempts.length]? = some (.pending a) := by simp
  rw [step, settle, hlast]
  simp [Reply.outcome]

end OnDemand
