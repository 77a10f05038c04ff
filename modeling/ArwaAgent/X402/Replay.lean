import Mathlib.Data.List.Pairwise
import ArwaAgent.X402.Purchase

/-!
# Replayed payments

The look-up of a nonce and its insertion are apart: between them the handler awaits and
verifies the signature.  As long as no nonce is looked up while another handler is
between the two with the same nonce, every payment is accepted at most once; without
that, two handlers can both find it unused.
-/

namespace ArwaAgent.X402

open Js Effects Effects.Code

section

variable {crypto : Crypto} {cfg : ServerConfig} {w : ServerWorld}

/-- The handler of a request has found a nonce unused, and has not finished its verification. -/
def Verifying (w : ServerWorld) (k : ℕ) (n : Value) : Prop :=
  ∃ t p, w.tasks[k]? = some t ∧
    Pool.phase requestProtocol t.job.phase w.log k = .checked p ∧ nonce p = n

/-- No nonce is looked up while another handler is verifying a payment with the same nonce. -/
def Exclusive (w : ServerWorld) : Pool.Label ServerOp ServerAns ServerState Request → Prop
  | .turn e => ∀ n, e.op = .hasNonce n → ∀ k, k ≠ e.who → ¬ Verifying w k n
  | _ => True

/-- The verification has accepted the payment of a request. -/
def Accepted (w : ServerWorld) (k : ℕ) (payload : Value) : Prop :=
  ∃ e ∈ w.log, e.who = k ∧ e.job.paymentSignature = .payload payload ∧
    ∃ key payer, e.op = .verdict (.valid key payer)

/-- A request has bought a forecast with its payment. -/
def Sold (w : ServerWorld) (k : ℕ) (payload : Value) : Prop :=
  ∃ e ∈ w.log, e.who = k ∧ e.job.paymentSignature = .payload payload ∧
    ∃ lot, e.op = .computeForecast lot

/-- The invariant: the nonces that are being verified are unused, each by one handler only, and
every nonce has been added once. -/
structure SingleUse (w : ServerWorld) : Prop where
  used : ∀ e ∈ w.log, ∀ n, e.op = .addNonce (.str n) → n ∈ w.shared.usedNonces
  fresh : ∀ k n, Verifying w k (.str n) → n ∉ w.shared.usedNonces
  alone : ∀ k k' n, Verifying w k (.str n) → Verifying w k' (.str n) → k = k'
  once : w.log.Pairwise fun e e' => ∀ n, e.op = .addNonce (.str n) → e'.op ≠ .addNonce (.str n)

/-! ### What a step does to the handlers that are verifying -/

lemma verifying_start (hw : Pool.Conforms requestProtocol Request.phase w) {req : Request} {k : ℕ}
    {n : Value}
    (h : Verifying { w with tasks := w.tasks ++ [⟨req, (server crypto cfg).code req⟩] } k n) :
    Verifying w k n := by
  obtain ⟨t, p, ht, hph, hn⟩ := h
  rcases getElem?_snoc_eq_some_iff.1 ht with hold | ⟨rfl, rfl⟩
  · exact ⟨t, p, hold, hph, hn⟩
  · have hnew : ∀ e ∈ w.log, e.who ≠ w.tasks.length := fun e he => Nat.ne_of_lt (hw.who_lt he)
    rw [Pool.phase_of_new hnew, Request.phase] at hph
    split at hph <;> cases hph

/-- A call adds a nonce, or it leaves the used ones as they are. -/
lemma usedNonces_of_answer {x y : ServerState} {op : ServerOp} {r : ServerAns op}
    (h : (server crypto cfg).answer x op r y) :
    (∃ n, op = .addNonce (.str n) ∧ y.usedNonces = n :: x.usedNonces) ∨
      ((∀ n, op ≠ .addNonce (.str n)) ∧ y.usedNonces = x.usedNonces) := by
  cases op with
  | addNonce v =>
    cases v with
    | str n =>
      obtain ⟨-, rfl⟩ := h
      exact Or.inl ⟨n, rfl, rfl⟩
    | _ =>
      obtain ⟨-, rfl⟩ := h
      exact Or.inr ⟨(fun n hn => nomatch hn), rfl⟩
  | hasNonce v =>
    refine Or.inr ⟨(fun n hn => nomatch hn), ?_⟩
    cases v <;> obtain ⟨-, rfl⟩ := h <;> rfl
  | dateNow =>
    obtain ⟨-, rfl⟩ := h
    exact Or.inr ⟨(fun n hn => nomatch hn), rfl⟩
  | verdict v =>
    obtain ⟨-, rfl⟩ := h
    exact Or.inr ⟨(fun n hn => nomatch hn), rfl⟩
  | _ =>
    obtain rfl : y = x := h
    exact Or.inr ⟨(fun n hn => nomatch hn), rfl⟩

/-- The only way to start verifying is to look a nonce up and not to find it. -/
lemma checked_of_next {x y : ServerState} {ph : RequestPhase} {op : ServerOp} {r : ServerAns op}
    {p : Value} (hans : (server crypto cfg).answer x op r y) (hallowed : ph.allows op)
    (h : ph.next op r = .checked p) :
    (ph = .checked p ∧ ∀ n, op ≠ .addNonce n) ∨
      op = .hasNonce (nonce p) ∧ ∀ s, nonce p = .str s → s ∉ x.usedNonces := by
  cases ph with
  | unchecked q =>
    cases op with
    | hasNonce n =>
      simp only [RequestPhase.next] at h
      split at h
      · cases h
      · next hunused =>
        obtain rfl := RequestPhase.checked.inj h
        obtain rfl : n = nonce q := hallowed
        refine Or.inr ⟨rfl, fun s hs hmem => hunused ?_⟩
        rw [hs] at hans
        obtain ⟨rfl, -⟩ := hans
        exact decide_eq_true hmem
    | _ => cases h
  | checked q =>
    cases op with
    | addNonce n => cases h
    | verdict v => cases h
    | _ => exact Or.inl ⟨h, fun n hn => nomatch hn⟩
  | accepted q => cases op <;> cases h
  | _ => cases h

/-- A handler that is verifying after a call was so before and has not added its nonce, or it
has made the call and has not found the nonce. -/
lemma verifying_turn {k₀ : ℕ} {req : Request} {op : ServerOp} {r : ServerAns op}
    {next : ServerAns op → Program ServerOp ServerAns Unit} {y : ServerState}
    (hw : Pool.Conforms requestProtocol Request.phase w)
    (htask : w.tasks[k₀]? = some ⟨req, .call op next⟩)
    (hans : (server crypto cfg).answer w.shared op r y) {k : ℕ} {n : Value}
    (h : Verifying ⟨y, w.tasks.set k₀ ⟨req, next r⟩, w.log ++ [⟨⟨op, r, w.shared, y⟩, k₀, req⟩]⟩ k n) :
    (Verifying w k n ∧ (k = k₀ → ∀ m, op ≠ .addNonce m)) ∨
      (k = k₀ ∧ op = .hasNonce n ∧ ∀ s, n = .str s → s ∉ w.shared.usedNonces) := by
  obtain ⟨t, p, ht, hph, rfl⟩ := h
  by_cases hk : k₀ = k
  · subst hk
    rw [List.getElem?_set_self (List.getElem?_eq_some_iff.1 htask).1] at ht
    cases ht
    have hnext : _ = requestProtocol.next (Pool.phase requestProtocol req.phase w.log k₀) op r :=
      Pool.phase_append_self (⟨⟨op, r, w.shared, y⟩, k₀, req⟩ : ServerEntry)
    rw [hph] at hnext
    have hallowed := (hw.tasks k₀ _ htask).1
    rcases checked_of_next hans hallowed hnext.symm with ⟨hchecked, hadd⟩ | ⟨rfl, hunused⟩
    · exact Or.inl ⟨⟨_, p, htask, hchecked, rfl⟩, fun _ => hadd⟩
    · exact Or.inr ⟨rfl, rfl, hunused⟩
  · rw [List.getElem?_set_ne hk] at ht
    rw [Pool.phase_append_of_ne (by exact hk)] at hph
    exact Or.inl ⟨⟨t, p, ht, hph, rfl⟩, fun h => absurd h.symm hk⟩

/-- A handler adds only a nonce that it is verifying. -/
lemma verifying_of_add {k : ℕ} {req : Request} {n : String}
    {next : Unit → Program ServerOp ServerAns Unit}
    (hw : Pool.Conforms requestProtocol Request.phase w)
    (htask : w.tasks[k]? = some ⟨req, .call (.addNonce (.str n)) next⟩) :
    Verifying w k (.str n) := by
  have hallowed := (hw.tasks k _ htask).1
  cases hph : Pool.phase requestProtocol req.phase w.log k with
  | checked p =>
    rw [hph] at hallowed
    exact ⟨_, p, htask, hph, hallowed.1.symm⟩
  | anonymous | refused =>
    rw [hph] at hallowed
    cases hallowed
  | _ =>
    rw [hph] at hallowed
    exact hallowed.elim

/-- A call of a handler keeps the invariant, if it does not look up a nonce that another handler
is verifying. -/
lemma SingleUse.turn {k : ℕ} {req : Request} {op : ServerOp} {r : ServerAns op}
    {next : ServerAns op → Program ServerOp ServerAns Unit} {y : ServerState} (hs : SingleUse w)
    (hw : Pool.Conforms requestProtocol Request.phase w)
    (htask : w.tasks[k]? = some ⟨req, .call op next⟩)
    (hans : (server crypto cfg).answer w.shared op r y)
    (hok : Exclusive w (.turn ⟨⟨op, r, w.shared, y⟩, k, req⟩)) :
    SingleUse ⟨y, w.tasks.set k ⟨req, next r⟩, w.log ++ [⟨⟨op, r, w.shared, y⟩, k, req⟩]⟩ := by
  have hverifying := @verifying_turn crypto cfg w k req op r next y hw htask hans
  refine ⟨?_, ?_, ?_, ?_⟩
  · -- nothing is removed from the used nonces
    intro e he n hn
    rcases usedNonces_of_answer hans with ⟨m, hm, hused⟩ | ⟨hadd, hused⟩
    · rw [hused]
      rcases List.mem_append.1 he with he | he
      · exact List.mem_cons_of_mem _ (hs.used e he n hn)
      · obtain rfl := List.mem_singleton.1 he
        cases hm.symm.trans hn
        exact List.mem_cons_self ..
    · rw [hused]
      rcases List.mem_append.1 he with he | he
      · exact hs.used e he n hn
      · obtain rfl := List.mem_singleton.1 he
        exact absurd hn (hadd n)
  · -- an added nonce was being verified by the handler that has added it, and by no other
    intro k' n hk'
    rcases usedNonces_of_answer hans with ⟨m, rfl, hused⟩ | ⟨-, hused⟩
    · rw [hused]
      rcases hverifying hk' with ⟨hbefore, hself⟩ | ⟨-, hop, -⟩
      · intro hmem
        rcases List.mem_cons.1 hmem with rfl | hmem
        · exact hself (hs.alone k' k n hbefore (verifying_of_add hw htask)) _ rfl
        · exact hs.fresh k' n hbefore hmem
      · cases hop
    · rw [hused]
      rcases hverifying hk' with ⟨hbefore, -⟩ | ⟨-, -, hunused⟩
      · exact hs.fresh k' n hbefore
      · exact hunused n rfl
  · -- who has just looked the nonce up was the only one
    intro k₁ k₂ n h₁ h₂
    rcases hverifying h₁ with ⟨hbefore₁, -⟩ | ⟨rfl, hop, -⟩
    · rcases hverifying h₂ with ⟨hbefore₂, -⟩ | ⟨rfl, hop, -⟩
      · exact hs.alone k₁ k₂ n hbefore₁ hbefore₂
      · by_contra hne
        exact hok _ hop k₁ hne hbefore₁
    · rcases hverifying h₂ with ⟨hbefore₂, -⟩ | ⟨rfl, -⟩
      · by_contra hne
        exact hok _ hop k₂ (Ne.symm hne) hbefore₂
      · rfl
  · -- a nonce that is added was unused, so it has not been added before
    refine List.pairwise_append.2 ⟨hs.once, List.pairwise_singleton _ _, ?_⟩
    intro e he e' he' n hn hn'
    obtain rfl := List.mem_singleton.1 he'
    obtain rfl : op = .addNonce (.str n) := hn'
    exact hs.fresh k n (verifying_of_add hw htask) (hs.used e he n hn)

/-- In every run in which no nonce is looked up while it is being verified, the invariant
holds. -/
theorem singleUse (h : (signalServer crypto cfg).ReachableVia Exclusive w) : SingleUse w := by
  induction h with
  | @init w hinit =>
    obtain ⟨hused, htasks, hlog⟩ := hinit
    have hno : ∀ k n, ¬ Verifying w k n := by
      rintro k n ⟨t, p, ht, -⟩
      rw [htasks] at ht
      cases ht
    refine ⟨?_, fun k n hk => absurd hk (hno k _), fun k k' n hk => absurd hk (hno k _), ?_⟩
    · rw [hlog]
      exact fun e he => nomatch he
    · rw [hlog]
      exact List.Pairwise.nil
  | @step w _ _ hw hok hstep ih =>
    have hconf := conforms hw.reachable
    cases hstep with
    | start req =>
      exact ⟨ih.used, fun k n hk => ih.fresh k n (verifying_start hconf hk),
        fun k k' n hk hk' => ih.alone k k' n (verifying_start hconf hk) (verifying_start hconf hk'),
        ih.once⟩
    | turn htask hans => exact ih.turn hconf htask hans hok
    | drift hd =>
      obtain ⟨-, hused⟩ := hd
      exact ⟨fun e he n hn => hused ▸ ih.used e he n hn, fun k n hk => hused ▸ ih.fresh k n hk,
        ih.alone, ih.once⟩

/-! ### From the payments to their nonces -/

/-- The phases of a handler of a payment. -/
def RequestPhase.Of (payload : Value) : RequestPhase → Prop
  | unchecked p | checked p | accepted p | selling p => p = payload
  | refused => True
  | anonymous => False

/-- The phases after the nonce of the payment has been added. -/
def RequestPhase.Paid : RequestPhase → Prop
  | accepted _ | selling _ => True
  | _ => False

lemma of_phase {req : Request} {payload : Value} (hsig : req.paymentSignature = .payload payload)
    (log : List ServerEntry) (k : ℕ) :
    (Pool.phase requestProtocol req.phase log k).Of payload := by
  refine Pool.phase_invariant ?_ ?_ k
  · intro ph op r hph
    cases ph with
    | unchecked p =>
      cases op with
      | hasNonce n => cases r <;> exact hph
      | verdict v => trivial
      | _ => exact hph
    | checked p => cases op <;> first | exact hph | trivial
    | accepted p => cases op <;> exact hph
    | _ => exact hph
  · rw [Request.phase, hsig]
    rfl

lemma add_of_paid {ph : RequestPhase} {op : ServerOp} {r : ServerAns op} (h : ¬ ph.Paid)
    (hnext : (ph.next op r).Paid) : ∃ n, op = .addNonce n := by
  cases ph with
  | unchecked p =>
    cases op with
    | hasNonce n => cases r <;> exact hnext.elim
    | _ => exact hnext.elim
  | checked p =>
    cases op with
    | addNonce n => exact ⟨n, rfl⟩
    | _ => exact hnext.elim
  | accepted p | selling p => exact absurd trivial h
  | anonymous | refused => exact hnext.elim

lemma nonce_of_add (hw : Pool.Conforms requestProtocol Request.phase w) {e : ServerEntry}
    {payload n : Value} (he : e ∈ w.log) (hsig : e.job.paymentSignature = .payload payload)
    (hn : e.op = .addNonce n) : n = nonce payload ∧ ∃ s, n = .str s := by
  obtain ⟨before, after, hlog⟩ := List.append_of_mem he
  have hallowed : RequestPhase.allows _ e.op := hw.allowed before e after hlog
  have hof := of_phase hsig before e.who
  rw [hn] at hallowed
  generalize Pool.phase requestProtocol e.job.phase before e.who = ph at hallowed hof
  cases ph with
  | checked p =>
    obtain rfl : p = payload := hof
    exact hallowed
  | anonymous | refused => cases hallowed
  | _ => exact hallowed.elim

/-- Before a handler makes a call that only a paid request may make, it has added the nonce of
its payment. -/
lemma exists_add (hw : Pool.Conforms requestProtocol Request.phase w) {e : ServerEntry}
    {payload : Value} (he : e ∈ w.log) (hsig : e.job.paymentSignature = .payload payload)
    (hpaid : ∀ ph : RequestPhase, ph.allows e.op → ph.Paid) :
    ∃ d ∈ w.log, d.who = e.who ∧ ∃ s, nonce payload = .str s ∧ d.op = .addNonce (.str s) := by
  obtain ⟨before, after, hlog⟩ := List.append_of_mem he
  have hstart : ¬ e.job.phase.Paid := by
    rw [Request.phase, hsig]
    exact id
  obtain ⟨_, d, _, rfl, hwho, hbefore, hnext⟩ :=
    Pool.exists_turn_of_phase hstart (hpaid _ (hw.allowed before e after hlog))
  have hd : d ∈ w.log := by
    rw [hlog]
    simp
  -- both calls were made by the same handler, so for the same request
  have hjob : d.job = e.job := by
    obtain ⟨t, ht, htd⟩ := hw.started d hd
    obtain ⟨t', ht', hte⟩ := hw.started e he
    rw [hwho, ht'] at ht
    cases ht
    exact htd.symm.trans hte
  obtain ⟨n, hn⟩ := add_of_paid hbefore hnext
  obtain ⟨rfl, s, hs⟩ := nonce_of_add hw hd (hjob ▸ hsig) hn
  exact ⟨d, hd, hwho, s, hs, hs ▸ hn⟩

lemma Accepted.exists_add (hw : Pool.Conforms requestProtocol Request.phase w) {k : ℕ}
    {payload : Value} (h : Accepted w k payload) :
    ∃ d ∈ w.log, d.who = k ∧ ∃ s, nonce payload = .str s ∧ d.op = .addNonce (.str s) := by
  obtain ⟨e, he, rfl, hsig, key, payer, hop⟩ := h
  refine X402.exists_add hw he hsig fun ph hallowed => ?_
  rw [hop] at hallowed
  cases ph with
  | accepted p => trivial
  | anonymous | refused => cases hallowed
  | _ => exact hallowed.elim

lemma Sold.exists_add (hw : Pool.Conforms requestProtocol Request.phase w) {k : ℕ}
    {payload : Value} (h : Sold w k payload) :
    ∃ d ∈ w.log, d.who = k ∧ ∃ s, nonce payload = .str s ∧ d.op = .addNonce (.str s) := by
  obtain ⟨e, he, rfl, hsig, lot, hop⟩ := h
  refine X402.exists_add hw he hsig fun ph hallowed => ?_
  rw [hop] at hallowed
  cases ph with
  | selling p => trivial
  | anonymous | refused => cases hallowed
  | _ => exact hallowed.elim

/-- A nonce has been added by one handler at most. -/
lemma SingleUse.add_once (h : SingleUse w) {n : String} {d d' : ServerEntry} (hd : d ∈ w.log)
    (hd' : d' ∈ w.log) (hn : d.op = .addNonce (.str n)) (hn' : d'.op = .addNonce (.str n)) :
    d = d' := by
  by_contra hne
  have hsym : Std.Symm fun e e' : ServerEntry =>
      ∀ n, e.op = .addNonce (.str n) → e'.op ≠ .addNonce (.str n) :=
    ⟨fun _ _ h n hn hn' => h n hn' hn⟩
  exact h.once.forall hd hd' hne n hn hn'

/-- As long as no nonce is looked up while another handler is verifying a payment with it, one
payment is accepted in at most one of the requests, and buys at most one forecast. -/
theorem accepted_once (h : (signalServer crypto cfg).ReachableVia Exclusive w) :
    (∀ k k' payload, Accepted w k payload → Accepted w k' payload → k = k') ∧
      ∀ k k' payload, Sold w k payload → Sold w k' payload → k = k' := by
  have hw := conforms h.reachable
  have hs := singleUse h
  have honce : ∀ {k k' payload},
      (∃ d ∈ w.log, d.who = k ∧ ∃ s, nonce payload = .str s ∧ d.op = .addNonce (.str s)) →
      (∃ d ∈ w.log, d.who = k' ∧ ∃ s, nonce payload = .str s ∧ d.op = .addNonce (.str s)) →
      k = k' := by
    rintro _ _ payload ⟨d, hd, rfl, s, hn, hop⟩ ⟨d', hd', rfl, s', hn', hop'⟩
    cases hn.symm.trans hn'
    rw [hs.add_once hd hd' hop hop']
  exact ⟨fun k k' payload hk hk' => honce (hk.exists_add hw) (hk'.exists_add hw),
    fun k k' payload hk hk' => honce (hk.exists_add hw) (hk'.exists_add hw)⟩

end

/-! ### One request after the other -/

section

variable {crypto : Crypto} {cfg : ServerConfig} {info : AssetMeta} {payload : Value}
  {n payer : String} {w : ServerWorld}

/-- A handler may make any calls while no other one is verifying. -/
lemma exclusive_of_same {w' : ServerWorld} {k : ℕ} (hnone : ∀ i n, i ≠ k → ¬ Verifying w i n)
    (hsame : Pool.SameOthers k w w') (e : Event ServerOp ServerAns ServerState) (req : Request) :
    Exclusive w' (.turn ⟨e, k, req⟩) := by
  rintro n - i hi ⟨t, p, ht, hph, hn⟩
  obtain ⟨htasks, hcalls⟩ := hsame i hi
  rw [htasks] at ht
  rw [Pool.phase, hcalls] at hph
  exact hnone i n hi ⟨t, p, ht, hph, hn⟩

/-- An acceptable payment buys a forecast, and when it comes again, the request is handled to
its end. -/
theorem sequential_purchases (h : Acceptable crypto cfg info 0 payload n payer) (lot : String) :
    ∃ w, (signalServer crypto cfg).ReachableVia Exclusive w ∧
      w.tasks = [⟨purchase lot payload, .done ()⟩, ⟨purchase lot payload, .done ()⟩] ∧
      Accepted w 0 payload ∧ Sold w 0 payload := by
  obtain ⟨checked, accepted, hcheck, haccept, hsell⟩ := executes_purchase h lot
  have hfirst := ((hcheck ⟨0, []⟩ rfl List.not_mem_nil).append (haccept _)).append
    (hsell _ (some "X402_FACILITATOR_URL not set") (.obj []))
  have hsecond := @executes_replay crypto cfg info 0 payload n payer h lot
    (ServerState.use ⟨0, []⟩ n) (List.mem_cons_self ..)
  have h₀ : (signalServer crypto cfg).ReachableVia Exclusive ⟨⟨0, []⟩, [], []⟩ :=
    .init ⟨rfl, rfl, rfl⟩
  have h₁ := Pool.reachableVia_start h₀ (purchase lot payload) trivial
  have h₂ := @Pool.reachableVia_executes _ _ _ _ _ _ _ _ _ _ 0 _ _ _ _ h₁ rfl hfirst
    fun w' hsame e _ => exclusive_of_same (fun i n hi ⟨t, p, ht, _⟩ => by
      -- there is no other handler yet
      cases i with
      | zero => exact hi rfl
      | succ i => simp at ht) hsame e _
  have h₃ := Pool.reachableVia_start h₂ (purchase lot payload) trivial
  have h₄ := @Pool.reachableVia_executes _ _ _ _ _ _ _ _ _ _ 1 _ _ _ _ h₃ rfl hsecond
    fun w' hsame e _ => exclusive_of_same (fun i n hi ⟨t, p, ht, hph, _⟩ => by
      -- the first handler has sold its signal
      rcases i with _ | _ | i
      · cases ht
        cases hph
      · exact hi rfl
      · simp at ht) hsame e _
  refine ⟨_, h₄, rfl, ?_, ?_⟩
  · exact ⟨⟨⟨.verdict (.valid (publicKey payload) payer), (), ServerState.use ⟨0, []⟩ n,
      ServerState.use ⟨0, []⟩ n⟩, 0, purchase lot payload⟩, by simp, rfl, rfl, _, _, rfl⟩
  · exact ⟨⟨⟨.computeForecast lot, .ok (.obj []), ServerState.use ⟨0, []⟩ n,
      ServerState.use ⟨0, []⟩ n⟩, 0, purchase lot payload⟩, by simp, rfl, rfl, _, rfl⟩

end

/-- The payment is accepted once when it is sent twice, one request after the other. -/
theorem accepted_once_resent :
    ∃ w, (signalServer payerCrypto defaultServer).ReachableVia Exclusive w ∧
      w.tasks = [⟨purchase "P1" payment, .done ()⟩, ⟨purchase "P1" payment, .done ()⟩] ∧
      Accepted w 0 payment ∧ Sold w 0 payment ∧ ¬ Accepted w 1 payment ∧ ¬ Sold w 1 payment := by
  obtain ⟨w, hw, htasks, haccepted, hsold⟩ := sequential_purchases payment_acceptable "P1"
  obtain ⟨haccepted', hsold'⟩ := accepted_once hw
  refine ⟨w, hw, htasks, haccepted, hsold, fun h => ?_, fun h => ?_⟩
  · cases haccepted' 0 1 payment haccepted h
  · cases hsold' 0 1 payment hsold h

/-! ### Two requests at the same time -/

/-- The calls whose answers the handlers await. -/
def ServerOp.awaits : ServerOp → Bool
  | .getAssetMeta | .forwardToFacilitator _ _ | .computeForecast _ => true
  | _ => false

/-- A handler is done, or awaits an answer. -/
def Suspended (t : Process ServerOp ServerAns Request) : Prop :=
  match t.rest with
  | .done _ => True
  | .call op _ => op.awaits = true

/-- Code between two awaits is atomic: a handler starts, or goes on, only while all others are
suspended. -/
def AwaitAtomic (w : ServerWorld) : Pool.Label ServerOp ServerAns ServerState Request → Prop
  | .start _ => ∀ t ∈ w.tasks, Suspended t
  | .turn e => ∀ i t, i ≠ e.who → w.tasks[i]? = some t → Suspended t
  | .drift _ => True

section

variable {crypto : Crypto} {cfg : ServerConfig} {info : AssetMeta} {payload : Value}
  {n payer : String}

/-- The part of a handler between two awaits can be run while the others are suspended. -/
lemma awaitAtomic_executes {x y : ServerState} {ts : List (Process ServerOp ServerAns Request)}
    {log : List ServerEntry} {k : ℕ} {req : Request} {p q : Program ServerOp ServerAns Unit}
    {es : List (Event ServerOp ServerAns ServerState)}
    (h : (signalServer crypto cfg).ReachableVia AwaitAtomic ⟨x, ts, log⟩)
    (hp : ts[k]? = some ⟨req, p⟩) (hes : Pool.Executes (server crypto cfg) x p es y q)
    (hothers : ∀ i t, i ≠ k → ts[i]? = some t → Suspended t) :
    (signalServer crypto cfg).ReachableVia AwaitAtomic
      ⟨y, ts.set k ⟨req, q⟩, log ++ es.map fun e => ⟨e, k, req⟩⟩ := by
  refine Pool.reachableVia_executes h hp hes fun w' hsame e _ i t hi ht => ?_
  rw [(hsame i hi).1] at ht
  exact hothers i t hi ht

lemma suspended_of_pair {t₀ t₁ : Process ServerOp ServerAns Request} {k : ℕ}
    (h₀ : k ≠ 0 → Suspended t₀) (h₁ : k ≠ 1 → Suspended t₁) (i : ℕ)
    (t : Process ServerOp ServerAns Request) (hi : i ≠ k) (ht : [t₀, t₁][i]? = some t) :
    Suspended t := by
  rcases i with _ | _ | i
  · cases ht
    exact h₀ (Ne.symm hi)
  · cases ht
    exact h₁ (Ne.symm hi)
  · simp at ht

/-- An acceptable payment that is sent twice at the same time is accepted twice, although the
code between two awaits is atomic: both handlers look the nonce up before one of them adds
it. -/
theorem interleaved_purchases (h : Acceptable crypto cfg info 0 payload n payer) (lot : String) :
    ∃ w, (signalServer crypto cfg).ReachableVia AwaitAtomic w ∧
      (Accepted w 0 payload ∧ Sold w 0 payload) ∧ Accepted w 1 payload ∧ Sold w 1 payload := by
  obtain ⟨checked, accepted, hcheck, haccept, hsell⟩ := executes_purchase h lot
  have hcheck := hcheck ⟨0, []⟩ rfl List.not_mem_nil
  have hsell := fun x => hsell x (some "X402_FACILITATOR_URL not set") (.obj [])
  have hstart : Suspended ⟨purchase lot payload, (server crypto cfg).code (purchase lot payload)⟩ := by
    revert hcheck
    generalize (server crypto cfg).code (purchase lot payload) = p
    rintro (_ | _)
    rfl
  have h₀ : (signalServer crypto cfg).ReachableVia AwaitAtomic ⟨⟨0, []⟩, [], []⟩ :=
    .init ⟨rfl, rfl, rfl⟩
  have h₁ := Pool.reachableVia_start h₀ (purchase lot payload) fun t ht => nomatch ht
  have h₂ := Pool.reachableVia_start h₁ (purchase lot payload) fun t ht => by
    obtain rfl := List.mem_singleton.1 ht
    exact hstart
  -- both handlers look the nonce up
  have h₃ := @awaitAtomic_executes _ _ _ _ _ _ 0 _ _ _ _ h₂ rfl hcheck
    (suspended_of_pair (fun h => absurd rfl h) fun _ => hstart)
  have h₄ := @awaitAtomic_executes _ _ _ _ _ _ 1 _ _ _ _ h₃ rfl hcheck
    (suspended_of_pair (fun _ => rfl) fun h => absurd rfl h)
  -- both add it
  have h₅ := @awaitAtomic_executes _ _ _ _ _ _ 0 _ _ _ _ h₄ rfl (haccept _)
    (suspended_of_pair (fun h => absurd rfl h) fun _ => rfl)
  have h₆ := @awaitAtomic_executes _ _ _ _ _ _ 1 _ _ _ _ h₅ rfl (haccept _)
    (suspended_of_pair (fun _ => rfl) fun h => absurd rfl h)
  -- both sell their signal
  have h₇ := @awaitAtomic_executes _ _ _ _ _ _ 0 _ _ _ _ h₆ rfl (hsell _)
    (suspended_of_pair (fun h => absurd rfl h) fun _ => rfl)
  have h₈ := @awaitAtomic_executes _ _ _ _ _ _ 1 _ _ _ _ h₇ rfl (hsell _)
    (suspended_of_pair (fun _ => trivial) fun h => absurd rfl h)
  refine ⟨_, h₈, ⟨?_, ?_⟩, ?_, ?_⟩
  · exact ⟨⟨⟨.verdict (.valid (publicKey payload) payer), (), ServerState.use ⟨0, []⟩ n,
      ServerState.use ⟨0, []⟩ n⟩, 0, purchase lot payload⟩, by simp, rfl, rfl, _, _, rfl⟩
  · exact ⟨⟨⟨.computeForecast lot, .ok (.obj []), (ServerState.use ⟨0, []⟩ n).use n,
      (ServerState.use ⟨0, []⟩ n).use n⟩, 0, purchase lot payload⟩, by simp, rfl, rfl, _, rfl⟩
  · exact ⟨⟨⟨.verdict (.valid (publicKey payload) payer), (), (ServerState.use ⟨0, []⟩ n).use n,
      (ServerState.use ⟨0, []⟩ n).use n⟩, 1, purchase lot payload⟩, by simp, rfl, rfl, _, _, rfl⟩
  · exact ⟨⟨⟨.computeForecast lot, .ok (.obj []), (ServerState.use ⟨0, []⟩ n).use n,
      (ServerState.use ⟨0, []⟩ n).use n⟩, 1, purchase lot payload⟩, by simp, rfl, rfl, _, rfl⟩

end

/-- Two requests with the same payment, in flight at the same time, both get it accepted. -/
theorem replayed_payment_accepted_twice :
    ¬ ∀ (crypto : Crypto) (cfg : ServerConfig) (w : ServerWorld),
      (signalServer crypto cfg).ReachableVia AwaitAtomic w →
        (∀ k k' payload, Accepted w k payload → Accepted w k' payload → k = k') ∧
          ∀ k k' payload, Sold w k payload → Sold w k' payload → k = k' := by
  intro hall
  obtain ⟨w, hw, ⟨h₀, -⟩, h₁, -⟩ := interleaved_purchases payment_acceptable "P1"
  cases (hall _ _ w hw).1 0 1 payment h₀ h₁

end ArwaAgent.X402
