import Mathlib.Data.List.Induction
import ArwaAgent.Lib.History
import ArwaAgent.Lib.Program
import ArwaAgent.Lib.Transition

/-!
# Pools of programs over a shared state

Tasks are started at any time, each runs the program of its job, and their calls are
interleaved in any order; a `Machine` says how a call may be answered in the shared
state and what it does to it.  The state also drifts by itself, as a clock does.

The log of a pool keeps every answered call.  `phase` replays the calls of one task
through a monitor; `Pool.conforms` is the rule that makes the monitor useful: if every
job meets its monitor, then every call of every run was allowed when it was made.
-/

namespace Effects

/-- Jobs `J` with their programs, and the shared state `X` that answers their calls. -/
structure Machine (Op : Type) (Ans : Op → Type) (X J : Type) where
  init : X → Prop
  code : J → Program Op Ans Unit
  answer : X → (op : Op) → Ans op → X → Prop
  drift : X → X → Prop

/-- How a call is answered while no other task is in flight: only drift comes before it. -/
def Machine.alone {Op : Type} {Ans : Op → Type} {X J : Type} (m : Machine Op Ans X J) (x : X)
    (op : Op) (r : Ans op) (y : X) : Prop :=
  ∃ z, m.drift x z ∧ m.answer z op r y

variable {Op : Type} {Ans : Op → Type} {X J S : Type}

/-- A started job, with what is left of its program. -/
structure Process (Op : Type) (Ans : Op → Type) (J : Type) where
  job : J
  rest : Program Op Ans Unit

/-- A call in the log of a pool, with the number and the job of the task that made it. -/
structure Entry (Op : Type) (Ans : Op → Type) (X J : Type) extends Event Op Ans X where
  who : ℕ
  job : J

/-- The shared state, the tasks in the order in which they were started, and the log. -/
structure Pool (Op : Type) (Ans : Op → Type) (X J : Type) where
  shared : X
  tasks : List (Process Op Ans J)
  log : List (Entry Op Ans X J)

namespace Pool

/-- What may happen next in a pool. -/
inductive Label (Op : Type) (Ans : Op → Type) (X J : Type)
  | start (j : J)
  | turn (e : Entry Op Ans X J)
  | drift (y : X)

/-- One step of a pool. -/
inductive Step (m : Machine Op Ans X J) :
    Pool Op Ans X J → Label Op Ans X J → Pool Op Ans X J → Prop
  | start (w : Pool Op Ans X J) (j : J) :
      Step m w (.start j) { w with tasks := w.tasks ++ [⟨j, m.code j⟩] }
  | turn {w : Pool Op Ans X J} {k : ℕ} {j : J} {op : Op} {next : Ans op → Program Op Ans Unit}
      {r : Ans op} {y : X} (htask : w.tasks[k]? = some ⟨j, .call op next⟩)
      (hans : m.answer w.shared op r y) :
      Step m w (.turn ⟨⟨op, r, w.shared, y⟩, k, j⟩)
        ⟨y, w.tasks.set k ⟨j, next r⟩, w.log ++ [⟨⟨op, r, w.shared, y⟩, k, j⟩]⟩
  | drift {w : Pool Op Ans X J} {y : X} (h : m.drift w.shared y) :
      Step m w (.drift y) { w with shared := y }

/-- The runs of a machine: no task has been started initially. -/
def system (m : Machine Op Ans X J) : TransitionSystem (Pool Op Ans X J) (Label Op Ans X J) where
  init := fun w => m.init w.shared ∧ w.tasks = [] ∧ w.log = []
  step := Step m

/-- No task is in flight. -/
def Idle (w : Pool Op Ans X J) : Prop :=
  ∀ t ∈ w.tasks, t.rest = .done ()

/-! ### The phases of a task -/

/-- The calls of one task. -/
def callsOf (log : List (Entry Op Ans X J)) (who : ℕ) : List (Entry Op Ans X J) :=
  log.filter fun e => e.who = who

/-- The state of a monitor after the calls of a task. -/
def phase (M : Monitor Op Ans S) (s : S) (log : List (Entry Op Ans X J)) (who : ℕ) : S :=
  (callsOf log who).foldl (fun s e => M.next s e.op e.ans) s

variable {M : Monitor Op Ans S} {s : S} {log : List (Entry Op Ans X J)}

@[simp] lemma phase_nil {who : ℕ} : phase M s ([] : List (Entry Op Ans X J)) who = s := rfl

lemma phase_append_self (e : Entry Op Ans X J) :
    phase M s (log ++ [e]) e.who = M.next (phase M s log e.who) e.op e.ans := by
  simp [phase, callsOf, List.filter_append]

lemma phase_append_of_ne {e : Entry Op Ans X J} {who : ℕ} (h : e.who ≠ who) :
    phase M s (log ++ [e]) who = phase M s log who := by
  simp [phase, callsOf, List.filter_append, h]

lemma phase_append (log' : List (Entry Op Ans X J)) (who : ℕ) :
    phase M s (log ++ log') who = phase M (phase M s log who) log' who := by
  simp [phase, callsOf, List.filter_append, List.foldl_append]

lemma phase_cons_self (e : Entry Op Ans X J) :
    phase M s (e :: log) e.who = phase M (M.next s e.op e.ans) log e.who := by
  simp [phase, callsOf]

lemma phase_of_new {who : ℕ} (h : ∀ e ∈ log, e.who ≠ who) : phase M s log who = s := by
  have hnone : callsOf log who = [] :=
    List.filter_eq_nil_iff.2 fun e he hwho => h e he (of_decide_eq_true hwho)
  rw [phase, hnone]
  rfl

/-- What no call changes is not changed by the calls of a task. -/
lemma phase_invariant {I : S → Prop} (hI : ∀ s op r, I s → I (M.next s op r)) (hs : I s)
    (who : ℕ) : I (phase M s log who) := by
  rw [phase]
  generalize callsOf log who = calls
  induction calls generalizing s with
  | nil => exact hs
  | cons e calls ih => exact ih (hI _ _ _ hs)

/-- What holds of the phase of a task, and did not hold in the first one, has been brought about
by one of its calls. -/
lemma exists_turn_of_phase {P : S → Prop} {who : ℕ} (hs : ¬ P s) (h : P (phase M s log who)) :
    ∃ before e after, log = before ++ e :: after ∧ e.who = who ∧
      ¬ P (phase M s before who) ∧ P (M.next (phase M s before who) e.op e.ans) := by
  -- from the end of the log, so that the first phase stays the same
  induction log using List.reverseRecOn with
  | nil => exact absurd h hs
  | append_singleton log e ih =>
    by_cases hbefore : P (phase M s log who)
    · obtain ⟨before, d, after, rfl, hd⟩ := ih hbefore
      exact ⟨before, d, after ++ [e], by simp, hd⟩
    · by_cases hwho : e.who = who
      · subst hwho
        rw [phase_append_self] at h
        exact ⟨log, e, [], rfl, rfl, hbefore, h⟩
      · rw [phase_append_of_ne hwho] at h
        exact absurd h hbefore

/-- The tasks go on as the monitor wants, from the phases they are in, and end in a phase with
`Q`, and every logged call was allowed, and its answer expected, in the phase its task was in. -/
structure ConformsTo (M : Monitor Op Ans S) (start : J → S) (Q : S → Prop)
    (w : Pool Op Ans X J) : Prop where
  /-- what is left of each task meets the monitor -/
  tasks : ∀ (k : ℕ) (t : Process Op Ans J), w.tasks[k]? = some t →
    t.rest.Meets M (phase M (start t.job) w.log k) fun s _ => Q s
  /-- logged calls belong to started tasks -/
  started : ∀ e ∈ w.log, ∃ t, w.tasks[e.who]? = some t ∧ t.job = e.job
  /-- each logged call was allowed -/
  allowed : ∀ (before : List (Entry Op Ans X J)) (e : Entry Op Ans X J)
    (after : List (Entry Op Ans X J)), w.log = before ++ e :: after →
      M.allows (phase M (start e.job) before e.who) e.op

/-- The same, with nothing said of where the tasks end. -/
abbrev Conforms (M : Monitor Op Ans S) (start : J → S) : Pool Op Ans X J → Prop :=
  ConformsTo M start fun _ => True

variable {Q : S → Prop}

lemma ConformsTo.who_lt {start : J → S} {w : Pool Op Ans X J} (h : ConformsTo M start Q w)
    {e : Entry Op Ans X J} (he : e ∈ w.log) : e.who < w.tasks.length := by
  obtain ⟨t, ht, -⟩ := h.started e he
  exact (List.getElem?_eq_some_iff.1 ht).1

lemma ConformsTo.start {start : J → S} {w : Pool Op Ans X J} (hw : ConformsTo M start Q w) {j : J}
    {p : Program Op Ans Unit} (hp : p.Meets M (start j) fun s _ => Q s) :
    ConformsTo M start Q { w with tasks := w.tasks ++ [⟨j, p⟩] } := by
  refine ⟨?_, ?_, hw.allowed⟩
  · intro k t hk
    rcases getElem?_snoc_eq_some_iff.1 hk with hold | ⟨rfl, rfl⟩
    · exact hw.tasks k t hold
    · -- a task that has just been started has made no call
      have hnew : ∀ e ∈ w.log, e.who ≠ w.tasks.length := fun e he =>
        Nat.ne_of_lt (hw.who_lt he)
      rw [phase_of_new hnew]
      exact hp
  · intro e he
    obtain ⟨t, ht, hjob⟩ := hw.started e he
    exact ⟨t, getElem?_snoc_eq_some_iff.2 (Or.inl ht), hjob⟩

/-- A call that is answered as the monitor expects. -/
lemma ConformsTo.turn {start : J → S} {w : Pool Op Ans X J} (hw : ConformsTo M start Q w) {k : ℕ}
    {j : J} {op : Op} {next : Ans op → Program Op Ans Unit} {r : Ans op} {y : X}
    (htask : w.tasks[k]? = some ⟨j, .call op next⟩)
    (hr : M.expects (phase M (start j) w.log k) op r) :
    ConformsTo M start Q
      ⟨y, w.tasks.set k ⟨j, next r⟩, w.log ++ [⟨⟨op, r, w.shared, y⟩, k, j⟩]⟩ := by
  have hmeets := hw.tasks k _ htask
  have hk := (List.getElem?_eq_some_iff.1 htask).1
  refine ⟨?_, ?_, ?_⟩
  · intro i t hi
    by_cases hik : k = i
    · subst hik
      rw [List.getElem?_set_self hk] at hi
      cases hi
      -- the task that has moved is in its next phase, the others are where they were
      have hphase : _ = M.next (phase M (start j) w.log k) op r :=
        phase_append_self (⟨⟨op, r, w.shared, y⟩, k, j⟩ : Entry Op Ans X J)
      exact hphase ▸ hmeets.2 r hr
    · rw [List.getElem?_set_ne hik] at hi
      rw [phase_append_of_ne (by exact hik)]
      exact hw.tasks i t hi
  · intro e he
    rcases List.mem_append.1 he with he | he
    · obtain ⟨t, ht, hjob⟩ := hw.started e he
      by_cases hek : k = e.who
      · subst hek
        rw [htask] at ht
        cases ht
        exact ⟨_, List.getElem?_set_self hk, hjob⟩
      · exact ⟨t, (List.getElem?_set_ne hek).trans ht, hjob⟩
    · rw [List.mem_singleton] at he
      subst he
      exact ⟨_, List.getElem?_set_self hk, rfl⟩
  · intro before e after hsplit
    rcases snoc_eq_append_cons_iff.1 hsplit with ⟨rfl, rfl, -⟩ | ⟨rest, -, hlog⟩
    · exact hmeets.1
    · exact hw.allowed before e rest hlog

/-- If every job meets the monitor, whatever the machine answers, then all runs of the pool
conform to it. -/
theorem conforms {m : Machine Op Ans X J} {start : J → S}
    (hcode : ∀ j, (m.code j).Meets M (start j) fun s _ => Q s)
    (hans : ∀ s x op r y, m.answer x op r y → M.expects s op r) {w : Pool Op Ans X J}
    (h : (system m).Reachable w) : ConformsTo M start Q w := by
  refine h.invariant ?_ ?_
  · rintro ⟨x, ts, log⟩ ⟨-, rfl, rfl⟩
    exact ⟨by simp, by simp, by simp⟩
  · rintro w l w' hw - hstep
    cases hstep with
    | start j => exact hw.start (hcode j)
    | turn htask hr => exact hw.turn htask (hans _ _ _ _ _ hr)
    | drift hd => exact ⟨hw.tasks, hw.started, hw.allowed⟩

lemma ConformsTo.ended {start : J → S} {w : Pool Op Ans X J} (hw : ConformsTo M start Q w) {k : ℕ}
    {t : Process Op Ans J} (ht : w.tasks[k]? = some t) (hdone : t.rest = .done ()) :
    Q (phase M (start t.job) w.log k) := by
  have hmeets := hw.tasks k t ht
  rwa [hdone] at hmeets

/-- What holds of the first phase of a job, and what every allowed call keeps, holds of the phases
of all tasks. -/
lemma ConformsTo.phase_holds {start : J → S} {w : Pool Op Ans X J} (hw : ConformsTo M start Q w)
    {I : S → Prop} (hnext : ∀ s op r, I s → M.allows s op → I (M.next s op r)) {k : ℕ}
    {t : Process Op Ans J} (ht : w.tasks[k]? = some t) (hstart : I (start t.job)) :
    I (phase M (start t.job) w.log k) := by
  suffices h : ∀ log after, w.log = log ++ after → I (phase M (start t.job) log k) from
    h w.log [] (List.append_nil _).symm
  intro log
  -- from the end of the log, so that the first phase stays the same
  induction log using List.reverseRecOn with
  | nil => exact fun _ _ => hstart
  | append_singleton log e ih =>
    intro after hlog
    rw [List.append_assoc] at hlog
    have hbefore := ih _ hlog
    by_cases hwho : e.who = k
    · subst hwho
      obtain ⟨t', ht', hjob⟩ := hw.started e (hlog ▸ List.mem_append_right _ List.mem_cons_self)
      obtain rfl : t' = t := Option.some.inj (ht'.symm.trans ht)
      rw [phase_append_self]
      exact hnext _ _ _ hbefore (hjob ▸ hw.allowed log e after hlog)
    · rw [phase_append_of_ne hwho]
      exact hbefore

/-! ### The shared state between logged calls -/

section

variable {m : Machine Op Ans X J}

lemma answered {w : Pool Op Ans X J} (h : (system m).Reachable w) :
    ∀ e ∈ w.log, m.answer e.before e.op e.ans e.after := by
  induction h with
  | init hinit => simp [hinit.2.2]
  | step _ _ hstep ih =>
    cases hstep with
    | start j => exact ih
    | turn htask hans =>
      intro e he
      rcases List.mem_append.1 he with he | he
      · exact ih e he
      · rw [List.mem_singleton] at he
        subst he
        exact hans
    | drift hd => exact ih

/-- A logged call was made in a state of the run, and led to the next one. -/
theorem reachable_turn {w : Pool Op Ans X J} (h : (system m).Reachable w)
    {before after : List (Entry Op Ans X J)} {e : Entry Op Ans X J}
    (hlog : w.log = before ++ e :: after) :
    ∃ u v, (system m).Reachable u ∧ u.log = before ∧ u.shared = e.before ∧
      (system m).Reachable v ∧ v.log = before ++ [e] ∧ v.shared = e.after := by
  induction h generalizing before e after with
  | init hinit => simp [hinit.2.2] at hlog
  | @step u v l hu hok hstep ih =>
    have hv : (system m).Reachable v := .step hu hok hstep
    cases hstep with
    | start j => exact ih hlog
    | turn htask hans =>
      -- the logged call is this one, or it was there before
      rcases snoc_eq_append_cons_iff.1 hlog with ⟨rfl, rfl, -⟩ | ⟨rest, -, hlog⟩
      · exact ⟨u, _, hu, rfl, rfl, hv, rfl, rfl⟩
      · exact ih hlog
    | drift hd => exact ih hlog

/-- A property of the shared state that every call keeps, except some, and that time keeps,
holds from a logged call on until the first of those. -/
theorem holds_since {P : X → Prop} {bad : Op → Prop}
    (hkeep : ∀ x op r y, P x → m.answer x op r y → ¬ bad op → P y)
    (hdrift : ∀ x y, P x → m.drift x y → P y) {w : Pool Op Ans X J}
    (h : (system m).Reachable w) {pre post : List (Entry Op Ans X J)} {e : Entry Op Ans X J}
    (hlog : w.log = pre ++ e :: post) (he : P e.after) (hbad : ∀ d ∈ post, ¬ bad d.op) :
    P w.shared := by
  induction h generalizing post with
  | init hinit => simp [hinit.2.2] at hlog
  | step _ _ hstep ih =>
    cases hstep with
    | start j => exact ih hlog hbad
    | turn htask hans =>
      rcases snoc_eq_append_cons_iff.1 hlog with ⟨rfl, rfl, rfl⟩ | ⟨rest, rfl, hlog'⟩
      · exact he
      · refine hkeep _ _ _ _ (ih hlog' fun d hd => ?_) hans ?_
        · exact hbad d (List.mem_append_left _ hd)
        · exact hbad _ (List.mem_append_right _ (List.mem_singleton_self _))
    | drift hd => exact hdrift _ _ (ih hlog hbad) hd

end

/-! ### Running a job at a stretch -/

/-- A program makes some calls, one after another, which the machine answers, and goes on as
the second program. -/
inductive Executes (m : Machine Op Ans X J) :
    X → Program Op Ans Unit → List (Event Op Ans X) → X → Program Op Ans Unit → Prop
  | nil (x : X) (p : Program Op Ans Unit) : Executes m x p [] x p
  | cons {x y z : X} {op : Op} {next : Ans op → Program Op Ans Unit} {r : Ans op}
      {es : List (Event Op Ans X)} {q : Program Op Ans Unit} (hans : m.answer x op r y)
      (hrest : Executes m y (next r) es z q) :
      Executes m x (.call op next) (⟨op, r, x, y⟩ :: es) z q

lemma Executes.append {m : Machine Op Ans X J} {x y z : X} {p q t : Program Op Ans Unit}
    {es es' : List (Event Op Ans X)} (h : Executes m x p es y q) (h' : Executes m y q es' z t) :
    Executes m x p (es ++ es') z t := by
  induction h with
  | nil => exact h'
  | cons hans _ ih => exact .cons hans (ih h')

/-- The tasks other than one are where they were, and so are their calls. -/
def SameOthers (k : ℕ) (w w' : Pool Op Ans X J) : Prop :=
  ∀ i, i ≠ k → w'.tasks[i]? = w.tasks[i]? ∧ callsOf w'.log i = callsOf w.log i

section

variable {m : Machine Op Ans X J} {ok : Pool Op Ans X J → Label Op Ans X J → Prop}

/-- Some calls of a task are a run, if they meet the side condition wherever the other tasks
have not moved. -/
theorem continues_executes {x y : X} {k : ℕ} {j : J} {p q : Program Op Ans Unit}
    {es : List (Event Op Ans X)} {w : Pool Op Ans X J} (h : Executes m x p es y q)
    (hshared : w.shared = x) (hp : w.tasks[k]? = some ⟨j, p⟩)
    (hok : ∀ w', SameOthers k w w' → ∀ e ∈ es, ok w' (.turn ⟨e, k, j⟩)) :
    ((system m).restrict ok).Continues w
      ⟨y, w.tasks.set k ⟨j, q⟩, w.log ++ es.map fun e => ⟨e, k, j⟩⟩ := by
  induction h generalizing w with
  | nil x p =>
    have hset : w.tasks.set k ⟨j, p⟩ = w.tasks := by
      obtain ⟨hk, hget⟩ := List.getElem?_eq_some_iff.1 hp
      rw [← hget, List.set_getElem_self]
    subst hshared
    simp only [List.map_nil, List.append_nil, hset]
    exact .refl
  | @cons x y z op next r es q hans hrest ih =>
    subst hshared
    have hk := (List.getElem?_eq_some_iff.1 hp).1
    -- the first call, and then the others from the state it has left
    refine .cons ⟨hok w (fun i _ => ⟨rfl, rfl⟩) _ (List.mem_cons_self ..), .turn hp hans⟩ ?_
    have hnext := @ih ⟨y, w.tasks.set k ⟨j, next r⟩, w.log ++ [⟨⟨op, r, w.shared, y⟩, k, j⟩]⟩
      rfl (List.getElem?_set_self hk) fun w' hw' e he => ?_
    · simpa using hnext
    · refine hok w' (fun i hi => ?_) e (List.mem_cons_of_mem _ he)
      obtain ⟨htasks, hcalls⟩ := hw' i hi
      rw [htasks, hcalls, List.getElem?_set_ne (Ne.symm hi)]
      exact ⟨rfl, by simp [callsOf, List.filter_append, Ne.symm hi]⟩

lemma reachableVia_start {x : X} {ts : List (Process Op Ans J)} {log : List (Entry Op Ans X J)}
    (h : (system m).ReachableVia ok ⟨x, ts, log⟩) (j : J) (hok : ok ⟨x, ts, log⟩ (.start j)) :
    (system m).ReachableVia ok ⟨x, ts ++ [⟨j, m.code j⟩], log⟩ :=
  .step h hok (.start _ j)

/-- A run can go on with some calls of a task. -/
lemma reachableVia_executes {x y : X} {ts : List (Process Op Ans J)}
    {log : List (Entry Op Ans X J)} {k : ℕ} {j : J} {p q : Program Op Ans Unit}
    {es : List (Event Op Ans X)} (h : (system m).ReachableVia ok ⟨x, ts, log⟩)
    (hp : ts[k]? = some ⟨j, p⟩) (hes : Executes m x p es y q)
    (hok : ∀ w', SameOthers k ⟨x, ts, log⟩ w' → ∀ e ∈ es, ok w' (.turn ⟨e, k, j⟩)) :
    (system m).ReachableVia ok
      ⟨y, ts.set k ⟨j, q⟩, log ++ es.map fun e => ⟨e, k, j⟩⟩ :=
  h.continues (continues_executes hes rfl hp hok)

variable {f : X → (op : Op) → Ans op × X}

lemma executes_play (hf : ∀ x op, m.answer x op (f x op).1 (f x op).2) (x : X)
    (p : Program Op Ans Unit) :
    Executes m x p (Program.play f x p).1 (Program.play f x p).2.1 (.done ()) := by
  induction p generalizing x with
  | done a => exact .nil x _
  | call op next ih => exact .cons (hf x op) (ih _ _)

end

section

variable (m : Machine Op Ans X J) (f : X → (op : Op) → Ans op × X)

/-- The calls that a job makes when nothing comes in between. -/
def entries (w : Pool Op Ans X J) (j : J) : List (Entry Op Ans X J) :=
  (Program.play f w.shared (m.code j)).1.map fun e => ⟨e, w.tasks.length, j⟩

/-- The pool after a job has been started and run to its end. -/
def finish (w : Pool Op Ans X J) (j : J) : Pool Op Ans X J where
  shared := (Program.play f w.shared (m.code j)).2.1
  tasks := w.tasks ++ [⟨j, .done ()⟩]
  log := w.log ++ entries m f w j

variable {m f} {ok : Pool Op Ans X J → Label Op Ans X J → Prop}

theorem continues_finish (hf : ∀ x op, m.answer x op (f x op).1 (f x op).2)
    {w : Pool Op Ans X J} {j : J} (hstart : ok w (.start j))
    (hok : ∀ w', ∀ e ∈ entries m f w j, ok w' (.turn e)) :
    ((system m).restrict ok).Continues w (finish m f w j) := by
  refine .cons ⟨hstart, .start w j⟩ ?_
  have hplay := @continues_executes _ _ _ _ m ok _ _ w.tasks.length j _ _ _
    { w with tasks := w.tasks ++ [⟨j, m.code j⟩] } (executes_play hf w.shared (m.code j)) rfl
    (by simp) fun w' _ e he => hok w' _ (List.mem_map_of_mem he)
  simpa [finish, entries] using hplay

end

end Pool

end Effects
