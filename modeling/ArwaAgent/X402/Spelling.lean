import Mathlib.Data.List.Pairwise
import ArwaAgent.Lib.Outcome
import ArwaAgent.X402.Purchase

/-!
# Spellings of a nonce

The set of used nonces holds the texts of the nonces, while the digest is made of the bytes that
the digits of a text stand for.  A digit above nine has two spellings.  So payments that are
verified one after another are accepted with pairwise different bytes exactly if no two payments
that pass all other checks spell the same bytes in different ways (`nonces_distinct_iff`), and
a payment that passes the other checks still does when its nonce is spelled in another way
(`Passes.respell`).
-/

namespace ArwaAgent.X402

open Js Effects Effects.Code

/-- One call of the verification: the payment, what it has to satisfy, the time in milliseconds,
and what other parties answer. -/
structure Attempt where
  payload : Value
  requirements : PaymentRequirements
  now : ℕ
  answers : (op : ServerOp) → ServerAns op

/-- The answers to the calls of the verification when no other handler is at work. -/
def Attempt.answer (a : Attempt) (x : ServerState) (op : ServerOp) : ServerAns op × ServerState :=
  (x.local op).getD (a.answers op, x)

/-- The result of the verification after some nonces have been used, and the nonces that are used
after it. -/
def verifyAlone (crypto : Crypto) (used : List String) (a : Attempt) :
    Except Error Verification × List String :=
  let (r, y) := finish a.answer ⟨a.now, used⟩
    (verifyX402V2Signature crypto a.payload a.requirements)
  (r, y.usedNonces)

/-- The verification accepts the payment. -/
def accepts (crypto : Crypto) (used : List String) (a : Attempt) : Bool :=
  match (verifyAlone crypto used a).1 with
  | .ok (.valid _ _) => true
  | _ => false

/-- The payments that are accepted when they are verified one after another. -/
def accepted (crypto : Crypto) : List String → List Attempt → List Attempt
  | _, [] => []
  | used, a :: as =>
    if accepts crypto used a then a :: accepted crypto (verifyAlone crypto used a).2 as
    else accepted crypto (verifyAlone crypto used a).2 as

/-- A payment passes all checks but that its nonce is unused. -/
structure Passes (crypto : Crypto) (a : Attempt) : Prop where
  fields : checkFields a.payload a.requirements = .ok none
  times : checkTimes a.payload (a.now / 1000) = .ok none
  info : ∃ info, a.answers .getAssetMeta = .ok info
  signed : ∃ payer, checkSignature crypto a.payload a.requirements = .ok (.ok payer)

/-- The nonces are two texts of 64 digits that stand for the same 32 bytes. -/
def SameBytes (m n : Value) : Prop :=
  ∃ s t, m = .str s ∧ n = .str t ∧ IsHex 64 s ∧ IsHex 64 t ∧ hexBytes s.toList = hexBytes t.toList

section

variable {crypto : Crypto} {used : List String} {a b : Attempt} {as : List Attempt} {n : String}

lemma answer_hasNonce_alone (x : ServerState) (v : Value) :
    ∃ b : Bool, a.answer x (.hasNonce v) = (b, x) ∧
      (b = true ↔ ∃ n ∈ x.usedNonces, v = .str n) := by
  cases v with
  | str n => exact ⟨decide (n ∈ x.usedNonces), rfl, by simp⟩
  | _ => exact ⟨false, rfl, by simp⟩

lemma finish_verifyUnused (crypto : Crypto) (used : List String) (a : Attempt)
    (hfields : checkFields a.payload a.requirements = .ok none) :
    (∃ n payer, Passes crypto a ∧ nonce a.payload = .str n ∧
      finish a.answer ⟨a.now, used⟩ (verifyUnused crypto a.payload a.requirements) =
        (.ok (.valid (publicKey a.payload) payer), ⟨a.now, n :: used⟩)) ∨
    (¬ Passes crypto a ∧ ∃ r, (∀ key payer, r ≠ .ok (.valid key payer)) ∧
      finish a.answer ⟨a.now, used⟩ (verifyUnused crypto a.payload a.requirements) =
        (r, ⟨a.now, used⟩)) := by
  have hnow : a.answer ⟨a.now, used⟩ .dateNow = (a.now, ⟨a.now, used⟩) := rfl
  have hmeta : a.answer ⟨a.now, used⟩ .getAssetMeta = (a.answers .getAssetMeta, ⟨a.now, used⟩) := rfl
  simp only [verifyUnused, finish_bind, finish_ask, hnow, finish_result]
  cases htimes : checkTimes a.payload (a.now / 1000) with
  | error e => exact Or.inr ⟨(fun h => by cases htimes.symm.trans h.times), _, (by simp), rfl⟩
  | ok r =>
    cases r with
    | some reason =>
      exact Or.inr ⟨(fun h => by cases htimes.symm.trans h.times), .ok (.invalid reason), (by simp), rfl⟩
    | none =>
      simp only [finish_bind, finish_ask, hmeta, id]
      cases hinfo : a.answers .getAssetMeta with
      | error e =>
        refine Or.inr ⟨fun h => ?_, .error e, by simp, rfl⟩
        obtain ⟨info, hok⟩ := h.info
        cases hinfo.symm.trans hok
      | ok info =>
        simp only [finish_result]
        cases hsigned : checkSignature crypto a.payload a.requirements with
        | error e =>
          refine Or.inr ⟨fun h => ?_, .error e, by simp, rfl⟩
          obtain ⟨payer, hok⟩ := h.signed
          cases hsigned.symm.trans hok
        | ok r =>
          cases r with
          | error reason =>
            refine Or.inr ⟨fun h => ?_, .ok (.invalid reason), by simp, rfl⟩
            obtain ⟨payer, hok⟩ := h.signed
            cases hsigned.symm.trans hok
          | ok payer =>
            obtain ⟨n, hn⟩ := nonce_of_checkSignature hsigned
            refine Or.inl ⟨n, payer, ⟨hfields, htimes, ⟨info, hinfo⟩, payer, hsigned⟩, hn, ?_⟩
            have hadd : a.answer ⟨a.now, used⟩ (.addNonce (nonce a.payload)) =
                ((), ⟨a.now, n :: used⟩) := by
              rw [hn]
              rfl
            simp only [finish_bind, finish_ask, hadd]
            rfl

/-- What the verification does: it accepts a payment that passes and adds its nonce, if this is
unused, and else it accepts nothing and adds nothing. -/
lemma verifyAlone_cases (crypto : Crypto) (used : List String) (a : Attempt) :
    (∃ n payer, Passes crypto a ∧ nonce a.payload = .str n ∧ n ∉ used ∧
      verifyAlone crypto used a = (.ok (.valid (publicKey a.payload) payer), n :: used)) ∨
    ((¬ Passes crypto a ∨ ∃ n ∈ used, nonce a.payload = .str n) ∧
      ∃ reason, verifyAlone crypto used a = (.ok (.invalid reason), used)) := by
  cases hfields : checkFields a.payload a.requirements with
  | error e =>
    refine Or.inr ⟨Or.inl (fun h => by cases hfields.symm.trans h.fields), ?_⟩
    simp only [verifyAlone, verifyX402V2Signature, finish_tryCatch, finish_bind, finish_result,
      hfields]
    exact ⟨_, rfl⟩
  | ok r =>
    cases r with
    | some reason =>
      refine Or.inr ⟨Or.inl (fun h => by cases hfields.symm.trans h.fields), reason, ?_⟩
      simp only [verifyAlone, verifyX402V2Signature, finish_tryCatch, finish_bind, finish_result,
        hfields]
      rfl
    | none =>
      obtain ⟨b, hb, hused⟩ := @answer_hasNonce_alone a ⟨a.now, used⟩ (nonce a.payload)
      simp only [verifyAlone, verifyX402V2Signature, finish_tryCatch, finish_bind, finish_result,
        hfields, finish_ask, hb]
      cases b with
      | true => exact Or.inr ⟨Or.inr (hused.1 rfl), _, rfl⟩
      | false =>
        simp only [Bool.false_eq_true, if_false]
        rcases finish_verifyUnused crypto used a hfields with
          ⟨n, payer, hpasses, hn, heq⟩ | ⟨hnot, r, hr, heq⟩
        · rw [heq]
          refine Or.inl ⟨n, payer, hpasses, hn, fun hmem => ?_, rfl⟩
          exact absurd (hused.2 ⟨n, hmem, hn⟩) (by decide)
        · rw [heq]
          refine Or.inr ⟨Or.inl hnot, ?_⟩
          cases r with
          | error e => exact ⟨_, rfl⟩
          | ok v =>
            cases v with
            | invalid reason => exact ⟨reason, rfl⟩
            | valid key payer => exact absurd rfl (hr key payer)

/-! ### One verification after another -/

/-- The nonce of the payment is among the used ones. -/
def Used (used : List String) (a : Attempt) : Prop :=
  ∃ n ∈ used, nonce a.payload = .str n

/-- A payment that is accepted passes, and its nonce goes from the unused ones to the used ones. -/
lemma of_accepts (h : accepts crypto used a = true) : Passes crypto a ∧ ¬ Used used a ∧
    ∃ n, nonce a.payload = .str n ∧ (verifyAlone crypto used a).2 = n :: used := by
  rw [accepts] at h
  rcases verifyAlone_cases crypto used a with ⟨n, payer, hpasses, hn, hunused, heq⟩ | ⟨-, reason, heq⟩
  · refine ⟨hpasses, ?_, n, hn, by rw [heq]⟩
    rintro ⟨m, hm, hm'⟩
    cases hn.symm.trans hm'
    exact hunused hm
  · rw [heq] at h
    cases h

lemma accepts_of_passes (h : Passes crypto a) (hunused : ¬ Used used a) :
    accepts crypto used a = true := by
  rw [accepts]
  rcases verifyAlone_cases crypto used a with ⟨n, payer, -, -, -, heq⟩ | ⟨hnot, -⟩
  · rw [heq]
  · rcases hnot with hnot | hused
    · exact absurd h hnot
    · exact absurd hused hunused

lemma of_not_accepts (h : accepts crypto used a = false) :
    (Passes crypto a → Used used a) ∧ (verifyAlone crypto used a).2 = used := by
  rw [accepts] at h
  rcases verifyAlone_cases crypto used a with ⟨n, payer, -, -, -, heq⟩ | ⟨hnot, reason, heq⟩
  · rw [heq] at h
    cases h
  · exact ⟨fun hpasses => hnot.resolve_left fun hn => hn hpasses, by rw [heq]⟩

lemma accepted_cons_of_accepts (h : accepts crypto used a = true) :
    accepted crypto used (a :: as) = a :: accepted crypto (verifyAlone crypto used a).2 as := by
  rw [accepted, if_pos h]

lemma accepted_cons_of_not_accepts (h : accepts crypto used a = false) :
    accepted crypto used (a :: as) = accepted crypto used as := by
  rw [accepted, if_neg (by rw [h]; decide), (of_not_accepts h).2]

lemma of_mem_accepted (h : a ∈ accepted crypto used as) :
    a ∈ as ∧ Passes crypto a ∧ ¬ Used used a := by
  induction as generalizing used with
  | nil => cases h
  | cons b as ih =>
    cases hb : accepts crypto used b with
    | false =>
      rw [accepted_cons_of_not_accepts hb] at h
      obtain ⟨hmem, hrest⟩ := ih h
      exact ⟨List.mem_cons_of_mem _ hmem, hrest⟩
    | true =>
      obtain ⟨hpasses, hunused, n, -, hused⟩ := of_accepts hb
      rw [accepted_cons_of_accepts hb, hused] at h
      rcases List.mem_cons.1 h with rfl | h
      · exact ⟨List.mem_cons_self, hpasses, hunused⟩
      · obtain ⟨hmem, hpasses, hunused⟩ := ih h
        refine ⟨List.mem_cons_of_mem _ hmem, hpasses, ?_⟩
        rintro ⟨m, hm, hm'⟩
        exact hunused ⟨m, List.mem_cons_of_mem _ hm, hm'⟩

/-- No two accepted payments have the same text as their nonce. -/
lemma accepted_pairwise (as : List Attempt) (used : List String) :
    (accepted crypto used as).Pairwise fun a b => nonce a.payload ≠ nonce b.payload := by
  induction as generalizing used with
  | nil => exact List.Pairwise.nil
  | cons b as ih =>
    cases hb : accepts crypto used b with
    | false =>
      rw [accepted_cons_of_not_accepts hb]
      exact ih used
    | true =>
      obtain ⟨-, -, n, hn, hused⟩ := of_accepts hb
      rw [accepted_cons_of_accepts hb, hused]
      refine List.Pairwise.cons (fun a ha heq => ?_) (ih _)
      exact (of_mem_accepted ha).2.2 ⟨n, List.mem_cons_self, heq.symm.trans hn⟩

/-- Every payment that passes is accepted, or another one with the same text as its nonce is. -/
lemma exists_accepted (hb : b ∈ as) (hpasses : Passes crypto b) (hunused : ¬ Used used b) :
    ∃ a ∈ accepted crypto used as, nonce a.payload = nonce b.payload := by
  induction as generalizing used with
  | nil => cases hb
  | cons c as ih =>
    cases hc : accepts crypto used c with
    | false =>
      rw [accepted_cons_of_not_accepts hc]
      rcases List.mem_cons.1 hb with rfl | hb
      · exact absurd ((of_not_accepts hc).1 hpasses) hunused
      · exact ih hb hunused
    | true =>
      obtain ⟨-, -, n, hn, hused⟩ := of_accepts hc
      rw [accepted_cons_of_accepts hc, hused]
      by_cases hsame : nonce c.payload = nonce b.payload
      · exact ⟨c, List.mem_cons_self, hsame⟩
      · have hmem : b ∈ as := by
          rcases List.mem_cons.1 hb with rfl | hb
          · exact absurd rfl hsame
          · exact hb
        have hstill : ¬ Used (n :: used) b := by
          rintro ⟨m, hm, hm'⟩
          rcases List.mem_cons.1 hm with rfl | hm
          · exact hsame (hn.trans hm'.symm)
          · exact hunused ⟨m, hm, hm'⟩
        obtain ⟨a, ha, heq⟩ := ih hmem hstill
        exact ⟨a, List.mem_cons_of_mem _ ha, heq⟩

/-- Payments that are verified one after another are accepted with nonces that are pairwise
different as bytes, if and only if no two of them that pass all other checks spell the same
bytes in different ways. -/
theorem nonces_distinct_iff (crypto : Crypto) (as : List Attempt) :
    ((accepted crypto [] as).Pairwise fun a b => ¬ SameBytes (nonce a.payload) (nonce b.payload)) ↔
      ∀ a ∈ as, ∀ b ∈ as, Passes crypto a → Passes crypto b →
        SameBytes (nonce a.payload) (nonce b.payload) → nonce a.payload = nonce b.payload := by
  have hnone : ∀ a, ¬ Used [] a := by
    rintro a ⟨n, hn, -⟩
    cases hn
  constructor
  · intro hdistinct a ha b hb hpa hpb hsame
    by_contra hne
    obtain ⟨a', ha', heq⟩ := exists_accepted ha hpa (hnone a)
    obtain ⟨b', hb', heq'⟩ := exists_accepted hb hpb (hnone b)
    have hsym : Std.Symm fun a b : Attempt => ¬ SameBytes (nonce a.payload) (nonce b.payload) :=
      ⟨fun a b h ⟨s, t, hs, ht, hxs, hxt, hbytes⟩ => h ⟨t, s, ht, hs, hxt, hxs, hbytes.symm⟩⟩
    refine hdistinct.forall ha' hb' ?_ ?_
    · rintro rfl
      exact hne (heq.symm.trans heq')
    · rw [heq, heq']
      exact hsame
  · intro hspelled
    refine (accepted_pairwise as []).imp_of_mem fun ha hb hne hsame => hne ?_
    obtain ⟨hmem, hpasses, -⟩ := of_mem_accepted ha
    obtain ⟨hmem', hpasses', -⟩ := of_mem_accepted hb
    exact hspelled _ hmem _ hmem' hpasses hpasses' hsame

end

/-! ### The same authorization, spelled in another way -/

/-- `hashTypedData` reads a nonce of 32 bytes as digits, in upper or lower case, and nothing
else. -/
structure ReadsDigits (crypto : Crypto) : Prop where
  alike : ∀ domain m n, IsHex 64 m.nonce → IsHex 64 n → hexBytes n.toList = hexBytes m.nonce.toList →
    crypto.hashTypedData domain { m with nonce := n } = crypto.hashTypedData domain m
  only : ∀ domain m, ¬ IsHex 64 m.nonce → ∃ e, crypto.hashTypedData domain m = .error e

/-- Two payments differ in the nonce at most. -/
structure Respelled (p q : Value) : Prop where
  network : (p.field? "accepted").field? "network" = (q.field? "accepted").field? "network"
  signature : signature p = signature q
  publicKey : publicKey p = publicKey q
  truthy : (authorization p).truthy = (authorization q).truthy
  field : ∀ name, name ≠ "nonce" → (authorization p).field name = (authorization q).field name

section

variable {crypto : Crypto} {a : Attempt} {p q : Value} {requirements : PaymentRequirements}
  {s t : String} {now : ℕ}

lemma field_nonce (h : nonce p = .str s) : (authorization p).field "nonce" = .ok (.str s) := by
  rw [nonce] at h
  cases hauth : authorization p with
  | undefined | null =>
    rw [hauth] at h
    cases h
  | _ =>
    rw [hauth] at h
    exact congrArg Except.ok h

lemma field_length (hs : IsHex 64 s) : (Value.str s).field "length" = .ok (.num (.finite 64)) := by
  show Except.ok (Value.num (.finite (length16 s))) = _
  rw [hs.length16]
  rfl

lemma Respelled.checkFields (h : Respelled p q) (hp : nonce p = .str s) (hq : nonce q = .str t)
    (hs : IsHex 64 s) (ht : IsHex 64 t) :
    checkFields q requirements = checkFields p requirements := by
  simp only [X402.checkFields, h.network, h.signature, h.publicKey, h.truthy,
    h.field "to" (by decide), h.field "value" (by decide), field_nonce hp, field_nonce hq, ok_bind,
    field_length hs, field_length ht]

lemma Respelled.checkTimes (h : Respelled p q) : checkTimes q now = checkTimes p now := by
  simp only [X402.checkTimes, h.field "validBefore" (by decide), h.field "validAfter" (by decide)]

/-- The messages differ in the nonce at most. -/
lemma Respelled.message (h : Respelled p q) (hp : nonce p = .str s) (hq : nonce q = .str t)
    (hs : IsHex 64 s) (ht : IsHex 64 t) :
    message crypto q = (message crypto p >>= fun m => .ok { m with nonce := t }) ∧
      ∀ m, message crypto p = .ok m → m.nonce = s := by
  have htext : ∀ u, asText (.str u) "auth.nonce" "padStart" = .ok u := fun u => rfl
  constructor
  · simp only [X402.message, signerAddress, h.publicKey, h.field "to" (by decide),
      h.field "value" (by decide), h.field "validBefore" (by decide),
      h.field "validAfter" (by decide), field_nonce hp, field_nonce hq, ok_bind, htext,
      ht.last64, bind_assoc]
    rfl
  · intro m hm
    simp only [X402.message, field_nonce hp, ok_bind, htext, hs.last64] at hm
    obtain ⟨_, -, hm⟩ := bind_eq_ok.1 hm
    obtain ⟨_, -, hm⟩ := bind_eq_ok.1 hm
    obtain ⟨_, -, hm⟩ := bind_eq_ok.1 hm
    obtain ⟨_, -, hm⟩ := bind_eq_ok.1 hm
    obtain ⟨_, -, hm⟩ := bind_eq_ok.1 hm
    obtain ⟨_, -, hm⟩ := bind_eq_ok.1 hm
    obtain ⟨_, -, hm⟩ := bind_eq_ok.1 hm
    obtain ⟨_, -, hm⟩ := bind_eq_ok.1 hm
    cases hm
    rfl

/-- The digests are the same. -/
lemma Respelled.digest (hcrypto : ReadsDigits crypto) (h : Respelled p q)
    (hsame : SameBytes (nonce p) (nonce q)) :
    digest crypto q requirements = digest crypto p requirements := by
  obtain ⟨s, t, hp, hq, hs, ht, hbytes⟩ := hsame
  obtain ⟨hmessage, hnonce⟩ : X402.message crypto q =
      (X402.message crypto p >>= fun m => .ok { m with nonce := t }) ∧
        ∀ m, X402.message crypto p = .ok m → m.nonce = s := h.message hp hq hs ht
  rw [X402.digest, X402.digest, hmessage]
  congr 1
  funext domain
  cases hm : X402.message crypto p with
  | error e => rfl
  | ok m =>
    have hm' := hnonce m hm
    exact hcrypto.alike domain m t (hm' ▸ hs) ht (by rw [hm', hbytes])

theorem Passes.respell (hcrypto : ReadsDigits crypto) (h : Passes crypto a)
    (hq : Respelled a.payload q) (hsame : SameBytes (nonce a.payload) (nonce q)) :
    Passes crypto { a with payload := q } := by
  have hdigest : digest crypto q a.requirements = digest crypto a.payload a.requirements :=
    hq.digest hcrypto hsame
  obtain ⟨s, t, hs, ht, hxs, hxt, -⟩ := hsame
  refine ⟨?_, ?_, h.info, ?_⟩
  · exact (hq.checkFields hs ht hxs hxt).trans h.fields
  · exact hq.checkTimes.trans h.times
  · obtain ⟨payer, hpayer⟩ := h.signed
    refine ⟨payer, ?_⟩
    rw [checkSignature] at hpayer ⊢
    simp only [hdigest, signatureHex, ← hq.signature, ← hq.publicKey, ← hq.field "from" (by decide)]
    exact hpayer

/-- So an authorization that is accepted can be sent again. -/
theorem accepted_respelled (hcrypto : ReadsDigits crypto) (h : Passes crypto a)
    (hq : Respelled a.payload q) (hsame : SameBytes (nonce a.payload) (nonce q))
    (hne : nonce a.payload ≠ nonce q) :
    accepted crypto [] [a, { a with payload := q }] = [a, { a with payload := q }] := by
  have hfirst : accepts crypto [] a = true := by
    refine accepts_of_passes h ?_
    rintro ⟨n, hn, -⟩
    cases hn
  obtain ⟨-, -, n, hn, hused⟩ := of_accepts hfirst
  have hsecond : accepts crypto [n] { a with payload := q } = true := by
    refine accepts_of_passes (h.respell hcrypto hq hsame) ?_
    rintro ⟨m, hm, hm'⟩
    obtain rfl := List.mem_singleton.1 hm
    exact hne (hn.trans hm'.symm)
  rw [accepted_cons_of_accepts hfirst, hused, accepted_cons_of_accepts hsecond]
  rfl

end

/-- The payer's functions, where the digest is that of the payment for the bytes of its nonce. -/
def digitCrypto : Crypto :=
  { payerCrypto with
    hashTypedData := fun _ m =>
      if IsHex 64 m.nonce then
        .ok (if hexBytes m.nonce.toList = hexBytes paymentNonce.toList then paymentDigest else "")
      else .error ⟨"invalid bytes32"⟩ }

lemma readsDigits_digitCrypto : ReadsDigits digitCrypto where
  alike := by
    intro domain m n hm hn hbytes
    simp only [digitCrypto, if_pos hm, if_pos hn, hbytes]
  only := by
    intro domain m hm
    exact ⟨_, if_neg hm⟩

/-- The payment with its nonce in capitals. -/
def capitalPayment : Value :=
  .obj [
    ("accepted", .obj [("network", .str "casper:casper-test")]),
    ("payload", .obj [
      ("signature", signature payment),
      ("publicKey", publicKey payment),
      ("authorization", (authorization payment).withField "nonce"
        (.str "78377B525757B494427F89014F97D79928F3938D14EB51E20FB5DEC9834EB304"))])]

lemma respelled_payment : Respelled payment capitalPayment where
  network := rfl
  signature := rfl
  publicKey := rfl
  truthy := rfl
  field := by
    intro name hname
    have hbeq : (name == "nonce") = false := beq_false_of_ne hname
    simp [payment, capitalPayment, authorization, Value.field?, Value.field, Value.ownField,
      Value.withField, List.lookup_cons, hbeq]

/-- The payment is verified at the start of the server's clock. -/
def firstAttempt : Attempt where
  payload := payment
  requirements := requirementsOf defaultServer wcspr
  now := 0
  answers
    | .getAssetMeta => .ok wcspr
    | .hasNonce _ => false
    | .dateNow => 0
    | .addNonce _ | .verdict _ => ()
    | .forwardToFacilitator _ _ => ⟨false, .localFallback, .undefined, none⟩
    | .computeForecast _ => .ok .undefined

lemma firstAttempt_passes : Passes digitCrypto firstAttempt where
  fields := payment_fields
  times := payment_times
  info := ⟨wcspr, rfl⟩
  signed := by
    have hdigest : digest digitCrypto firstAttempt.payload firstAttempt.requirements =
        .ok paymentDigest := by
      decide +kernel
    refine ⟨_, Eq.trans ?_ payment_signed⟩
    rw [checkSignature, checkSignature, hdigest, payment_digest]
    rfl

/-- One authorization is accepted twice, the second time in capitals. -/
theorem capitals_are_accepted_again :
    ¬ ∀ (crypto : Crypto) (as : List Attempt), ReadsDigits crypto →
      (accepted crypto [] as).Pairwise fun a b =>
        ¬ SameBytes (nonce a.payload) (nonce b.payload) := by
  intro h
  have hsame : SameBytes (nonce payment) (nonce capitalPayment) :=
    ⟨_, _, rfl, rfl, by decide, by decide +kernel, by decide +kernel⟩
  have hne : nonce payment ≠ nonce capitalPayment := by
    intro heq
    exact absurd (Value.str.inj heq) (by decide)
  have hpairwise := h digitCrypto [firstAttempt, { firstAttempt with payload := capitalPayment }]
    readsDigits_digitCrypto
  rw [accepted_respelled readsDigits_digitCrypto firstAttempt_passes respelled_payment hsame hne]
    at hpairwise
  exact (List.pairwise_cons.1 hpairwise).1 _ List.mem_cons_self hsame

end ArwaAgent.X402
