import ArwaAgent.Lib.Returns
import ArwaAgent.X402.Agreement

/-!
# What the client gives away

The server of a paid resource may be anyone, and its header may ask for anything.  Whatever
it answers, a fetch makes two requests at most; only the second one carries a payment, which is
signed for the requirements of the first answer, with the amount of the caller in place of the
one that is asked for, if the caller has set one.
-/

namespace ArwaAgent.X402

open Js Effects Effects.Code

/-- The requirements that a payment is made for: `{ ...reqs, amount: override }`, if there is an
override. -/
def FetchOptions.offer (options : FetchOptions) (header : Value) : Value :=
  match options.paymentAmountOverride with
  | some amount => if amount ≠ "" then header.withField "amount" (.str amount) else header
  | none => header

/-- A payment for some requirements: the texts of its authorization are those of the message that
has been hashed and signed. -/
inductive Signed (c : ClientCrypto) (endpoint : String) (reqs : Value) : Value → Prop
  | intro {pub : PublicKey} {t : Target} {v : Validity} {now : ℕ}
      {sender after before digest pem sig : String} {value validAfter validBefore : ℤ}
      {nonce : List ℕ} (ht : target c reqs = .ok t)
      (hvalue : (reqs.ownField "amount").toBigInt = .ok value)
      (hv : validity now reqs = .ok v) (hafter : v.validAfter.toBigInt = .ok validAfter)
      (hbefore : v.validBefore.toBigInt = .ok validBefore)
      (hafterText : v.validAfter.toStr = .ok after) (hbeforeText : v.validBefore.toStr = .ok before)
      (hdigest : c.hashTypedData t.domain
        ⟨sender, .str t.payToV2, value, validAfter, validBefore, hexOf nonce⟩ = .ok digest)
      (hsig : signDigest c digest pem pub = .ok sig) :
      Signed c endpoint reqs
        (paymentPayload endpoint reqs pub t.payToV2 sig after before (hexOf nonce))

/-- A request with the response to it. -/
abbrev Exchange : Type := HttpRequest × Except Error HttpResponse

/-- The requests of a fetch, with any responses, and any answers to the other calls. -/
def exchanged (xs : List Exchange) : (op : ClientOp) → ClientAns op → List Exchange → Prop
  | .request q, r, ys => ys = xs ++ [(q, r)]
  | _, _, ys => ys = xs

/-- What a fetch has done when it ends with `result`. -/
inductive Spent (c : ClientCrypto) (endpoint : String) (options : FetchOptions)
    (result : Except Error Fetched) : List Exchange → Prop
  /-- Nothing has been paid. -/
  | nothing {q : HttpRequest} {r : Except Error HttpResponse} (hq : q.paymentSignature = none)
      (hresult : ∀ fetched, result = .ok fetched → fetched.proof = none) :
      Spent c endpoint options result [(q, r)]
  /-- One payment has been sent, for what the first answer has asked for. -/
  | once {q q' : HttpRequest} {resp : HttpResponse} {r' : Except Error HttpResponse}
      {header p : Value} (hq : q.paymentSignature = none) (hresp : resp.status = 402)
      (hheader : resp.paymentRequired = some header) (hq' : q'.paymentSignature = some p)
      (hsigned : Signed c endpoint (options.offer header) p)
      (hresult : ∀ fetched, result = .ok fetched → ∃ proof, fetched.proof = some proof ∧
        proof.paymentHeader = p ∧ proof.amountMotes = (authorization p).ownField "value") :
      Spent c endpoint options result [(q, .ok resp), (q', r')]

section

variable {c : ClientCrypto} {endpoint : String} {options : FetchOptions} {reqs p header : Value}

/-! ### The view of the client -/

/-- How far a fetch is. -/
inductive ClientView
  | start
  | served (first : Exchange)
  | challenged (q : HttpRequest) (resp : HttpResponse) (header : Value)
  | paid (q : HttpRequest) (resp : HttpResponse) (header : Value) (q' : HttpRequest)
      (r' : Except Error HttpResponse)

/-- The requests of a fetch so far. -/
def ClientView.exchanges : ClientView → List Exchange
  | .start => []
  | .served first => [first]
  | .challenged q resp _ => [(q, .ok resp)]
  | .paid q resp _ q' r' => [(q, .ok resp), (q', r')]

/-- The order of the requests, and what the second one carries. -/
def ClientView.allows (c : ClientCrypto) (endpoint : String) (options : FetchOptions) :
    ClientView → ClientOp → Prop
  | .start, op => ∃ q, op = .request q ∧ q.paymentSignature = none
  | .challenged _ _ header, op => match op with
    | .request q => ∃ p, q.paymentSignature = some p ∧ Signed c endpoint (options.offer header) p
    | _ => True
  | _, _ => False

/-- The view after a call. -/
def ClientView.next : ClientView → (op : ClientOp) → ClientAns op → ClientView
  | .start, .request q, .ok resp =>
    match resp.paymentRequired with
    | some header => if resp.status = 402 then .challenged q resp header else .served (q, .ok resp)
    | none => .served (q, .ok resp)
  | .start, .request q, .error e => .served (q, .error e)
  | .challenged q resp header, .request q', r' => .paid q resp header q' r'
  | view, _, _ => view

/-- A fetch as its server may see it. -/
def spendingMonitor (c : ClientCrypto) (endpoint : String) (options : FetchOptions) :
    Monitor ClientOp ClientAns ClientView where
  allows := ClientView.allows c endpoint options
  next := ClientView.next

/-- What holds of a view. -/
def ClientView.Sound (c : ClientCrypto) (endpoint : String) (options : FetchOptions) :
    ClientView → Prop
  | .start => True
  | .served first => first.1.paymentSignature = none
  | .challenged q resp header =>
    q.paymentSignature = none ∧ resp.status = 402 ∧ resp.paymentRequired = some header
  | .paid q resp header q' _ =>
    (q.paymentSignature = none ∧ resp.status = 402 ∧ resp.paymentRequired = some header) ∧
      ∃ p, q'.paymentSignature = some p ∧ Signed c endpoint (options.offer header) p

lemma buildPayment_returns {pkPath : String} {q : HttpRequest} {resp : HttpResponse} :
    Returns (spendingMonitor c endpoint options) (.challenged q resp header) ()
      (buildPayment c pkPath endpoint reqs)
      fun _ _ payment => Signed c endpoint reqs payment.payload := by
  refine Returns.ask_bind trivial fun r keys _ _ => ?_
  refine Returns.result_bind fun sender _ => ?_
  refine Returns.result_bind fun t ht => ?_
  refine Returns.ask_bind trivial fun r ms _ _ => ?_
  refine Returns.result_bind fun v hv => ?_
  refine Returns.ask_bind trivial fun r nonce _ _ => ?_
  refine Returns.result_bind fun digest hdigest => ?_
  refine Returns.ask_bind trivial fun r pem _ _ => ?_
  refine Returns.result_bind fun sig hsig => ?_
  refine Returns.result_bind fun after hafter => ?_
  refine Returns.result_bind fun before hbefore => ?_
  obtain ⟨value, hvalue, hdigest⟩ := bind_eq_ok.1 hdigest
  obtain ⟨validAfter, hvalidAfter, hdigest⟩ := bind_eq_ok.1 hdigest
  obtain ⟨validBefore, hvalidBefore, hdigest⟩ := bind_eq_ok.1 hdigest
  exact Returns.pure (.intro ht hvalue hv hvalidAfter hvalidBefore hafter hbefore hdigest hsig)

lemma buildPayment_stays {pkPath : String} {q : HttpRequest} {resp : HttpResponse} :
    Stays (spendingMonitor c endpoint options) (.challenged q resp header)
      (buildPayment c pkPath endpoint reqs) := by
  refine .bind (.ask trivial fun _ => rfl) fun keys => ?_
  refine .bind (.result _) fun sender => .bind (.result _) fun t => ?_
  refine .bind (.ask trivial fun _ => rfl) fun ms => .bind (.result _) fun v => ?_
  refine .bind (.ask trivial fun _ => rfl) fun nonce => .bind (.result _) fun digest => ?_
  refine .bind (.ask trivial fun _ => rfl) fun pem => .bind (.result _) fun sig => ?_
  exact .bind (.result _) fun after => .bind (.result _) fun before => .pure _

/-- What is written for the amount is the amount of the requirements. -/
lemma Signed.value_eq (h : Signed c endpoint reqs p) :
    (authorization p).ownField "value" = reqs.ownField "amount" := by
  obtain ⟨-, -, -, -, -, -, -, -, -⟩ := h
  rfl

/-- What a view says about the result of the fetch. -/
def ClientView.Brings (view : ClientView) (fetched : Fetched) : Prop :=
  match view with
  | .paid _ _ _ q' _ => ∃ proof, fetched.proof = some proof ∧
      q'.paymentSignature = some proof.paymentHeader ∧
      proof.amountMotes = (authorization proof.paymentHeader).ownField "value"
  | _ => fetched.proof = none

/-- What a fetch ends with. -/
def ClientView.Ends (view : ClientView) (r : Except Error Fetched) : Prop :=
  view ≠ .start ∧ ∀ fetched, r = .ok fetched → view.Brings fetched

lemma ClientView.ends_error {view : ClientView} (hview : view ≠ .start) (e : Error) :
    view.Ends (.error e) := by
  refine ⟨hview, fun fetched hr => ?_⟩
  cases hr

lemma ClientView.ends_ok {view : ClientView} {fetched : Fetched} (hview : view ≠ .start)
    (h : view.Brings fetched) : view.Ends (.ok fetched) := by
  refine ⟨hview, fun fetched' hr => ?_⟩
  cases hr
  exact h

lemma ClientView.next_served {q : HttpRequest} {resp : HttpResponse}
    (h : resp.status = 402 → resp.paymentRequired = none) :
    (spendingMonitor c endpoint options).next .start (.request q) (.ok resp) =
      .served (q, .ok resp) := by
  cases hheader : resp.paymentRequired with
  | none => simp [spendingMonitor, ClientView.next, hheader]
  | some header =>
    have hstatus : resp.status ≠ 402 := fun hstatus => by simp [h hstatus] at hheader
    simp [spendingMonitor, ClientView.next, hheader, hstatus]

/-- A fetch follows the monitor, whatever it is answered. -/
lemma payAndFetchViaX402_spends (c : ClientCrypto) (cfg : ClientConfig) (endpoint : String)
    (options : FetchOptions) :
    Meets (spendingMonitor c endpoint options) .start () (payAndFetchViaX402 c cfg endpoint options)
      fun view _ r => view.Ends r := by
  refine meets_ask_bind.2 ⟨⟨_, rfl, rfl⟩, fun r _ => ?_⟩
  cases r with
  | error e => exact ClientView.ends_error (by simp [spendingMonitor, ClientView.next]) e
  | ok initial =>
    simp only [id]
    split
    next hstatus =>
      rw [ClientView.next_served fun h => absurd h hstatus]
      exact ClientView.ends_ok (by simp) rfl
    next hstatus =>
      have hstatus : initial.status = 402 := not_not.1 hstatus
      cases hheader : initial.paymentRequired with
      | none =>
        rw [ClientView.next_served fun _ => hheader]
        exact ClientView.ends_error (by simp) _
      | some header =>
        have hview : (spendingMonitor c endpoint options).next .start
            (.request ⟨options.method.getD .get, endpoint, options.body, none⟩) (.ok initial) =
              .challenged ⟨options.method.getD .get, endpoint, options.body, none⟩ initial
                header := by
          simp [spendingMonitor, ClientView.next, hheader, hstatus]
        rw [hview]
        by_cases htruthy : header.truthy = true
        · simp only [Option.filter, htruthy, if_true]
          refine Meets.bind (buildPayment_returns.stays buildPayment_stays) ?_ ?_
          · -- the payment is sent, and the answer is the last one
            rintro _ l payment ⟨rfl, hsigned⟩
            have hsigned := hsigned payment rfl
            refine meets_ask_bind.2 ⟨⟨_, rfl, hsigned⟩, fun r _ => ?_⟩
            cases r with
            | error e => exact ClientView.ends_error (by simp [spendingMonitor, ClientView.next]) e
            | ok final =>
              simp only [id]
              split
              · exact ClientView.ends_error (by simp [spendingMonitor, ClientView.next]) _
              · exact ClientView.ends_ok (by simp [spendingMonitor, ClientView.next])
                  ⟨_, rfl, rfl, hsigned.value_eq.symm⟩
          · rintro _ l e ⟨rfl, -⟩
            exact ClientView.ends_error (by simp) e
        · simp only [Option.filter, htruthy]
          exact ClientView.ends_error (by simp) _

/-! ### What has been exchanged -/

/-- The view knows what has been exchanged. -/
lemma ClientView.next_sound {view : ClientView} {op : ClientOp} {r : ClientAns op}
    (h : view.Sound c endpoint options) (hallows : view.allows c endpoint options op) :
    (view.next op r).Sound c endpoint options ∧
      exchanged view.exchanges op r (view.next op r).exchanges := by
  cases view with
  | start =>
    obtain ⟨q, rfl, hq⟩ := hallows
    cases r with
    | error e => exact ⟨hq, rfl⟩
    | ok resp =>
      simp only [ClientView.next]
      split
      next header hheader =>
        split
        next hstatus => exact ⟨⟨hq, hstatus, hheader⟩, rfl⟩
        next => exact ⟨hq, rfl⟩
      next => exact ⟨hq, rfl⟩
  | served first => exact hallows.elim
  | challenged q resp header =>
    cases op with
    | request q' => exact ⟨⟨h, hallows⟩, rfl⟩
    | _ => exact ⟨h, rfl⟩
  | paid q resp header q' r' => exact hallows.elim

lemma ClientView.spent {view : ClientView} {result : Except Error Fetched}
    (h : view.Sound c endpoint options) (hends : view.Ends result) :
    Spent c endpoint options result view.exchanges := by
  obtain ⟨hstart, hbrings⟩ := hends
  cases view with
  | start => exact absurd rfl hstart
  | served first => exact .nothing h hbrings
  | challenged q resp header => exact .nothing h.1 hbrings
  | paid q resp header q' r' =>
    obtain ⟨⟨hq, hstatus, hheader⟩, p, hp, hsigned⟩ := h
    refine .once hq hstatus hheader hp hsigned fun fetched hr => ?_
    obtain ⟨proof, hproof, hp', hamount⟩ := hbrings fetched hr
    obtain rfl : p = proof.paymentHeader := Option.some.inj (hp.symm.trans hp')
    exact ⟨proof, hproof, rfl, hamount⟩

/-- The amount of the caller stands in the requirements, whatever they are. -/
lemma FetchOptions.amount_offer {amount : String} (h : options.paymentAmountOverride = some amount)
    (hne : amount ≠ "") : (options.offer header).ownField "amount" = .str amount := by
  simp only [offer, h, if_pos hne, Value.withField, Value.ownField, List.lookup_cons_self,
    Option.getD_some]

/-- Every payment that is sent is signed for what an answer has asked for. -/
lemma Spent.signed {result : Except Error Fetched} {xs : List Exchange}
    (h : Spent c endpoint options result xs) {x : Exchange} (hx : x ∈ xs)
    (hp : x.1.paymentSignature = some p) :
    ∃ header, (∃ y ∈ xs, ∃ resp, y.2 = .ok resp ∧ resp.status = 402 ∧
      resp.paymentRequired = some header) ∧ Signed c endpoint (options.offer header) p := by
  cases h with
  | nothing hq =>
    obtain rfl := List.mem_singleton.1 hx
    exact absurd (hq.symm.trans hp) (by simp)
  | once hq hstatus hheader hq' hsigned =>
    rcases List.mem_cons.1 hx with rfl | hx
    · exact absurd (hq.symm.trans hp) (by simp)
    · obtain rfl := List.mem_singleton.1 hx
      obtain rfl := Option.some.inj (hq'.symm.trans hp)
      exact ⟨_, ⟨_, List.mem_cons_self, _, rfl, hstatus, hheader⟩, hsigned⟩

lemma spent_of_runs {cfg : ClientConfig} {xs : List Exchange} {result : Except Error Fetched}
    (hrun : Program.Runs exchanged [] ((payAndFetchViaX402 c cfg endpoint options).toProgram ()) xs
      (result, ())) : Spent c endpoint options result xs := by
  obtain ⟨view, ⟨rfl, hsound⟩, hends⟩ := Program.Meets.runs
    (I := fun view xs => xs = ClientView.exchanges view ∧ ClientView.Sound c endpoint options view)
    (by
      rintro view _ op r ys ⟨rfl, hsound⟩ hallows hans
      obtain ⟨hnext, hexchanged⟩ := ClientView.next_sound hsound hallows (r := r)
      refine ⟨trivial, ?_, hnext⟩
      cases op with
      | request q => exact hans.trans hexchanged.symm
      | _ => exact hans.trans hexchanged.symm)
    (payAndFetchViaX402_spends c cfg endpoint options) hrun ⟨rfl, trivial⟩
  exact view.spent hsound hends

/-- Whatever the server and the machine answer, a fetch ends after one request or two, of which the
second one alone pays, once, for what the first answer has asked for; and where the caller has set
an amount, that amount is what is signed. -/
theorem payment_once {cfg : ClientConfig} {xs : List Exchange} {result : Except Error Fetched}
    (hrun : Program.Runs exchanged [] ((payAndFetchViaX402 c cfg endpoint options).toProgram ()) xs
      (result, ())) :
    Spent c endpoint options result xs ∧
      ∀ amount, options.paymentAmountOverride = some amount → amount ≠ "" →
        ∀ x ∈ xs, ∀ p, x.1.paymentSignature = some p →
          (authorization p).ownField "value" = .str amount := by
  have hspent := spent_of_runs hrun
  refine ⟨hspent, fun amount hamount hne x hx p hp => ?_⟩
  obtain ⟨header, -, hsigned⟩ := hspent.signed hx hp
  rw [hsigned.value_eq, FetchOptions.amount_offer hamount hne]

/-- The exchanges beside some payments: they have sent these, and every 402 answer asks for
`requirements`. -/
def Beside (requirements : PaymentRequirements) (sent : List Value) (xs : List Exchange) : Prop :=
  xs.filterMap (·.1.paymentSignature) = sent.reverse ∧
    ∀ x ∈ xs, ∀ resp, x.2 = .ok resp → resp.status = 402 →
      resp.paymentRequired = some requirements.toJson

lemma runs_exchanged {pub : PublicKey} {priv : PrivateKey} {requirements : PaymentRequirements}
    {now : ℕ} {α : Type} {program : Program ClientOp ClientAns α} {sent : List Value} {a : α}
    (hrun : Program.Runs (clientAnswers c pub priv requirements now) [] program sent a) :
    ∃ xs : List Exchange, Program.Runs exchanged [] program xs a ∧
      Beside requirements sent xs := by
  refine Program.Runs.simulate (R := Beside requirements) ?_ hrun ⟨rfl, nofun⟩
  rintro sent xs op r _ ⟨hsent, hanswers⟩ ⟨hanswer, rfl⟩
  cases op with
  | request q =>
    refine ⟨xs ++ [(q, r)], rfl, ?_, fun x hx resp hresp => ?_⟩
    · rw [List.filterMap_append, hsent, ClientOp.sends, List.reverse_append, List.filterMap_cons]
      cases q.paymentSignature <;> rfl
    · rcases List.mem_append.1 hx with hx | hx
      · exact hanswers x hx resp hresp
      · obtain rfl := List.mem_singleton.1 hx
        exact hanswer resp hresp
  | _ => exact ⟨xs, rfl, hsent, hanswers⟩

/-- The first payment of the key 1. -/
theorem payment_once_point : ∃ result xs,
    Spent pointCrypto signalUrl ⟨none, .undefined, none, none⟩ result xs ∧
      xs.filterMap (·.1.paymentSignature) = [pointPayment] := by
  obtain ⟨fetched, hclient⟩ := runs_pointPayment
  obtain ⟨xs, hrun, hsent, -⟩ := runs_exchanged hclient
  exact ⟨fetched, xs, (payment_once hrun).1, hsent⟩

end

end ArwaAgent.X402
