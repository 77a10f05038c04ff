import ArwaAgent.CsprCloud.Subscription
import ArwaAgent.Js.Order
import ArwaAgent.Lib.History

/-!
# A subscription keeps one connection

Whatever the network does, a subscription that has not been closed has one socket that is not
closed, or one timer that will open the next one, and never both (`one_connection`).  The `open`
handler sends through the variable of the closure and not through the socket whose event it
handles; the two are the same socket, since the one before it has closed by then, so that
every connection gets each of the subscriptions once (`subscribed`) and no handler of
the subscription throws.

The wait doubles with every failure in a row and is cut at half a minute; the backoff itself goes on
doubling, to infinity in the end, which changes nothing about the wait (`reconnect_wait`).
-/

namespace ArwaAgent.CsprCloud.Subscription

open Js

section

variable {α : Type} {streams : List StreamName}
  {onMessage : StreamEnvelope → Except Error (Option α)} {s t : Subscription}
  {earlier : List Socket} {k l : Socket} {n : ℕ} {e : SubscriptionEvent}

/-- A socket that has not closed. -/
def live (k : Socket) : Bool :=
  k.readyState ≠ .closed

/-- The sockets that have not closed and the timers that have not run out. -/
def pending (s : Subscription) : ℕ :=
  s.sockets.countP live + s.timers.length

/-- What has been sent over a socket: nothing before it opens, every subscription when it does,
and nothing after that. -/
def Subscribed (streams : List StreamName) (k : Socket) : Prop :=
  match k.readyState with
  | .connecting => k.sent = []
  | .opened => k.sent = streams.map subscribeText
  | .closing | .closed => k.sent = [] ∨ k.sent = streams.map subscribeText

/-- The sockets of a subscription: earlier ones, which have closed, and the one that the variable
holds. -/
structure Holds (streams : List StreamName) (s : Subscription) (earlier : List Socket)
    (k : Socket) : Prop where
  sockets : s.sockets = earlier ++ [k]
  sock : s.sock = some earlier.length
  closed : ∀ l ∈ earlier, l.readyState = .closed
  subscribed : ∀ l ∈ earlier ++ [k], Subscribed streams l
  /-- a timer is set only when the socket has closed -/
  waiting : s.timers ≠ [] → s.timers.length = 1 ∧ k.readyState = .closed
  running : s.stopped = false → s.timers = [] → k.readyState ≠ .closed
  stopped : s.stopped = true → k.readyState = .closing ∨ k.readyState = .closed

/-! ### One step -/

lemma Holds.start : Holds streams start.connect [] .new where
  sockets := rfl
  sock := rfl
  closed := by simp
  subscribed := by
    intro l hl
    rw [List.nil_append, List.mem_singleton] at hl
    rw [hl]
    rfl
  waiting := fun h => absurd rfl h
  running := fun _ _ => by simp [Socket.new]
  stopped := by
    intro h
    cases h

/-- Only the socket that the variable holds has not closed. -/
lemma Holds.eq_of_live (h : Holds streams s earlier k) (hn : s.sockets[n]? = some l)
    (hl : l.readyState ≠ .closed) : n = earlier.length ∧ l = k := by
  rw [h.sockets] at hn
  rcases getElem?_snoc_eq_some_iff.1 hn with hearlier | hlast
  · exact absurd (h.closed l (List.mem_of_getElem? hearlier)) hl
  · exact hlast

lemma Holds.replace (h : Holds streams s earlier k) (hsockets : t.sockets = earlier ++ [l])
    (hsock : t.sock = s.sock) (hsubscribed : Subscribed streams l)
    (hwaiting : t.timers ≠ [] → t.timers.length = 1 ∧ l.readyState = .closed)
    (hrunning : t.stopped = false → t.timers = [] → l.readyState ≠ .closed)
    (hstopped : t.stopped = true → l.readyState = .closing ∨ l.readyState = .closed) :
    Holds streams t earlier l where
  sockets := hsockets
  sock := hsock.trans h.sock
  closed := h.closed
  subscribed := by
    intro x hx
    rcases List.mem_append.1 hx with hx | hx
    · exact h.subscribed x (List.mem_append_left _ hx)
    · rw [List.mem_singleton.1 hx]
      exact hsubscribed
  waiting := hwaiting
  running := hrunning
  stopped := hstopped

/-- A live socket leaves no timer. -/
lemma Holds.timers_eq_nil (h : Holds streams s earlier k) (hk : k.readyState ≠ .closed) :
    s.timers = [] := by
  by_contra hne
  exact hk (h.waiting hne).2

/-- A socket that connects or is open belongs to a subscription that goes on. -/
lemma Holds.not_stopped (h : Holds streams s earlier k)
    (hk : k.readyState = .connecting ∨ k.readyState = .opened) : s.stopped = false := by
  by_contra hstopped
  rw [Bool.not_eq_false] at hstopped
  rcases h.stopped hstopped with hk' | hk' <;> rw [hk'] at hk <;> simp at hk

lemma setReady_sockets (hsockets : s.sockets = earlier ++ [k]) (r : ReadyState) :
    (s.setReady earlier.length r).sockets = earlier ++ [{ k with readyState := r }] := by
  simp only [setReady, modifySocket, hsockets, modify_snoc]

lemma send_eq (hsockets : s.sockets = earlier ++ [k]) (hsock : s.sock = some earlier.length)
    (hk : k.readyState = .opened) (text : String) :
    s.send text = .ok { s with sockets := earlier ++ [{ k with sent := k.sent ++ [text] }] } := by
  have hlast : (earlier ++ [k])[earlier.length]? = some k := by simp
  simp only [send, hsock, hsockets, Option.bind_some, hlast, Option.map_some, Socket.send, hk,
    ok_bind, set_snoc]
  rfl

lemma foldlM_send (hsockets : s.sockets = earlier ++ [k]) (hsock : s.sock = some earlier.length)
    (hk : k.readyState = .opened) (streams : List StreamName) :
    streams.foldlM (fun s stream => s.send (subscribeText stream)) s =
      .ok { s with sockets :=
        earlier ++ [{ k with sent := k.sent ++ streams.map subscribeText }] } := by
  induction streams generalizing s k with
  | nil =>
    rw [List.map_nil, List.append_nil, ← hsockets]
    rfl
  | cons stream streams ih =>
    have hrest := ih (s := { s with sockets :=
      earlier ++ [{ k with sent := k.sent ++ [subscribeText stream] }] }) rfl hsock hk
    rw [List.foldlM_cons, send_eq hsockets hsock hk, ok_bind, hrest]
    simp

lemma Holds.onOpen (h : Holds streams s earlier k) (hk : k.readyState = .connecting) :
    ∃ t, (s.setReady earlier.length .opened).onOpen streams = .ok t ∧
      Holds streams t earlier ⟨.opened, streams.map subscribeText⟩ ∧ t.stopped = s.stopped ∧
        t.timers = s.timers ∧ t.backoff = firstBackoff := by
  have hsent : k.sent = [] := by
    have := h.subscribed k (List.mem_append_right _ (List.mem_singleton_self k))
    rwa [Subscribed, hk] at this
  have hnil : s.timers = [] := h.timers_eq_nil (by simp [hk])
  have hfold := foldlM_send
    (s := { s.setReady earlier.length .opened with backoff := firstBackoff })
    (setReady_sockets h.sockets .opened) h.sock rfl streams
  refine ⟨_, hfold, h.replace ?_ rfl rfl ?_ ?_ ?_, rfl, rfl, rfl⟩
  · rw [hsent, List.nil_append]
  · exact fun hne => absurd hnil hne
  · intro _ _
    simp
  · intro hstopped
    have := h.not_stopped (Or.inl hk)
    exact absurd hstopped (by simp [setReady, modifySocket, this])

lemma Holds.onClosing (h : Holds streams s earlier k)
    (hk : k.readyState = .connecting ∨ k.readyState = .opened) :
    Holds streams (s.setReady earlier.length .closing) earlier
      { k with readyState := .closing } := by
  have hsent := h.subscribed k (List.mem_append_right _ (List.mem_singleton_self k))
  have hnil : s.timers = [] := h.timers_eq_nil (by rcases hk with hk | hk <;> simp [hk])
  refine h.replace (setReady_sockets h.sockets .closing) rfl ?_ ?_ ?_ ?_
  · rcases hk with hk | hk <;> rw [Subscribed, hk] at hsent
    · exact Or.inl hsent
    · exact Or.inr hsent
  · exact fun hne => absurd hnil hne
  · intro _ _
    simp
  · exact fun _ => Or.inl rfl

lemma Holds.subscribed_closed (h : Holds streams s earlier k) :
    Subscribed streams { k with readyState := .closed } := by
  have hsent := h.subscribed k (List.mem_append_right _ (List.mem_singleton_self k))
  rw [Subscribed] at hsent ⊢
  cases hk : k.readyState with
  | connecting =>
    rw [hk] at hsent
    exact Or.inl hsent
  | opened =>
    rw [hk] at hsent
    exact Or.inr hsent
  | closing =>
    rw [hk] at hsent
    exact hsent
  | closed =>
    rw [hk] at hsent
    exact hsent

/-- A socket closes: the timer for the next one is set, unless the subscription has stopped. -/
lemma Holds.onClosed (h : Holds streams s earlier k) (hk : k.readyState ≠ .closed) :
    Holds streams (s.setReady earlier.length .closed).onClose earlier
      { k with readyState := .closed } := by
  have hnil : s.timers = [] := h.timers_eq_nil hk
  have hsockets := setReady_sockets h.sockets .closed
  rw [onClose]
  by_cases hstopped : s.stopped = true
  · rw [if_pos (by exact hstopped)]
    refine h.replace hsockets rfl h.subscribed_closed ?_ ?_ fun _ => Or.inr rfl
    · exact fun hne => absurd hnil hne
    · intro hrunning
      exact absurd hrunning (by simp [setReady, modifySocket, hstopped])
  · rw [if_neg (by exact hstopped)]
    refine h.replace hsockets rfl h.subscribed_closed ?_ ?_ fun _ => Or.inr rfl
    · intro _
      simp [setReady, modifySocket, hnil]
    · intro _ hnone
      simp at hnone

/-- A timer runs out: the next socket is made, unless the subscription has stopped. -/
lemma Holds.onTimeout (h : Holds streams s earlier k) {i : ℕ} (hi : i < s.timers.length) :
    ∃ earlier k, Holds streams (connect { s with timers := s.timers.eraseIdx i }) earlier k := by
  obtain ⟨hlen, hk⟩ := h.waiting (List.length_pos_iff.1 (by omega))
  have hnil : s.timers.eraseIdx i = [] := by
    rw [← List.length_eq_zero_iff, List.length_eraseIdx, if_pos hi]
    omega
  rw [connect]
  by_cases hstopped : s.stopped = true
  · rw [if_pos (by exact hstopped)]
    refine ⟨earlier, k, h.replace h.sockets rfl ?_ ?_ ?_ h.stopped⟩
    · exact h.subscribed k (List.mem_append_right _ (List.mem_singleton_self k))
    · exact fun hne => absurd hnil hne
    · exact fun hrunning => absurd hrunning (by simp [hstopped])
  · rw [if_neg (by exact hstopped)]
    refine ⟨earlier ++ [k], .new, ⟨?_, ?_, ?_, ?_, ?_, ?_, ?_⟩⟩
    · simp [h.sockets]
    · simp [h.sockets]
    · intro l hl
      rcases List.mem_append.1 hl with hl | hl
      · exact h.closed l hl
      · rw [List.mem_singleton.1 hl]
        exact hk
    · intro l hl
      rcases List.mem_append.1 hl with hl | hl
      · exact h.subscribed l hl
      · rw [List.mem_singleton.1 hl]
        rfl
    · exact fun hne => absurd hnil hne
    · intro _ _
      simp [Socket.new]
    · exact fun hstop => absurd hstop hstopped

lemma Holds.onCall (h : Holds streams s earlier k) : Holds streams s.close earlier k.close := by
  have hsent := h.subscribed k (List.mem_append_right _ (List.mem_singleton_self k))
  have hclose : s.close =
      { s with stopped := true, sockets := earlier ++ [k.close] } := by
    simp only [close, h.sock, modifySocket, h.sockets, modify_snoc]
  rw [hclose]
  refine h.replace rfl rfl ?_ ?_ (fun hrunning => by cases hrunning) ?_
  · rw [Subscribed] at hsent
    cases hk : k.readyState <;> rw [hk] at hsent <;> simp only [Socket.close, Subscribed, hk]
    · exact Or.inl hsent
    · exact Or.inr hsent
    · exact hsent
    · exact hsent
  · intro hne
    obtain ⟨hlen, hk⟩ := h.waiting hne
    exact ⟨hlen, by simp [Socket.close, hk]⟩
  · intro _
    cases hk : k.readyState <;> simp [Socket.close, hk]

/-- Every event leaves one socket in the variable, and no handler throws but the one of a
message. -/
theorem Holds.step (h : Holds streams s earlier k)
    (onMessage : StreamEnvelope → Except Error (Option α)) (he : s.enabled e) :
    (∃ t, s.handle streams onMessage e = .ok t ∧ ∃ earlier k, Holds streams t earlier k) ∨
      ∃ n raw, e = .message n raw ∧ ∀ t, s.handle streams onMessage e = .ok t → t = s := by
  cases e with
  | opened n =>
    obtain ⟨l, hn, hl⟩ := he
    obtain ⟨rfl, rfl⟩ := h.eq_of_live hn (by simp [hl])
    obtain ⟨t, ht, hholds, -⟩ := h.onOpen hl
    exact Or.inl ⟨t, ht, _, _, hholds⟩
  | message n raw =>
    refine Or.inr ⟨n, raw, rfl, fun t ht => ?_⟩
    obtain ⟨_, _, ht⟩ := bind_eq_ok.1 ht
    exact (Except.ok.inj ht).symm
  | error n => exact Or.inl ⟨s, rfl, _, _, h⟩
  | closing n =>
    obtain ⟨l, hn, hl⟩ := he
    obtain ⟨rfl, rfl⟩ := h.eq_of_live hn (by rcases hl with hl | hl <;> simp [hl])
    exact Or.inl ⟨_, rfl, _, _, h.onClosing hl⟩
  | closed n =>
    obtain ⟨l, hn, hl⟩ := he
    obtain ⟨rfl, rfl⟩ := h.eq_of_live hn hl
    exact Or.inl ⟨_, rfl, _, _, h.onClosed hl⟩
  | timeout i => exact Or.inl ⟨_, rfl, h.onTimeout he⟩
  | close => exact Or.inl ⟨_, rfl, _, _, h.onCall⟩

lemma Holds.of_step (h : Holds streams s earlier k) (hst : (system streams onMessage).step s e t) :
    ∃ earlier k, Holds streams t earlier k := by
  obtain ⟨he, ht⟩ := hst
  rcases h.step onMessage he with ⟨t', ht', hholds⟩ | ⟨n, raw, -, hsame⟩
  · rw [ht] at ht'
    cases ht'
    exact hholds
  · rw [hsame t ht]
    exact ⟨earlier, k, h⟩

/-! ### Whole runs -/

/-- In every reachable state the variable holds the only socket that may live. -/
theorem exists_holds (h : (system streams onMessage).Reachable s) :
    ∃ earlier k, Holds streams s earlier k := by
  refine h.invariant (I := fun s => ∃ earlier k, Holds streams s earlier k) ?_ ?_
  · rintro s rfl
    exact ⟨[], .new, Holds.start⟩
  · rintro s e t ⟨earlier, k, hs⟩ - hst
    exact hs.of_step hst

lemma Holds.pending_eq (h : Holds streams s earlier k) :
    s.pending = (if live k then 1 else 0) + s.timers.length := by
  have hearlier : earlier.countP live = 0 := by
    rw [List.countP_eq_zero]
    intro l hl
    simp [live, h.closed l hl]
  rw [pending, h.sockets, List.countP_append, hearlier, Nat.zero_add, List.countP_singleton]

/-! ### Getting back -/

/-- Some events lead to an open connection over which everything is subscribed to. -/
def Recovers (streams : List StreamName)
    (onMessage : StreamEnvelope → Except Error (Option α)) (s : Subscription) : Prop :=
  ∃ t, (system streams onMessage).Continues s t ∧ t.stopped = false ∧
    ∃ k ∈ t.sockets, k.readyState = .opened ∧ k.sent = streams.map subscribeText

lemma Recovers.cons (he : s.enabled e) (ht : s.handle streams onMessage e = .ok t)
    (h : Recovers streams onMessage t) : Recovers streams onMessage s := by
  obtain ⟨u, hcont, hu⟩ := h
  exact ⟨u, .cons ⟨he, ht⟩ hcont, hu⟩

lemma Holds.getElem?_eq (h : Holds streams s earlier k) : s.sockets[earlier.length]? = some k := by
  simp [h.sockets]

/-- A socket that connects can open. -/
lemma Holds.recovers_of_connecting (h : Holds streams s earlier k)
    (hk : k.readyState = .connecting) : Recovers streams onMessage s := by
  obtain ⟨t, ht, hholds, hst, -⟩ := h.onOpen hk
  refine ⟨t, .cons (a := .opened earlier.length) ⟨⟨k, h.getElem?_eq, hk⟩, ht⟩ .refl, ?_, ?_⟩
  · exact hst.trans (h.not_stopped (Or.inl hk))
  · refine ⟨⟨.opened, streams.map subscribeText⟩, ?_, rfl, rfl⟩
    rw [hholds.sockets]
    exact List.mem_append_right _ (List.mem_singleton_self _)

/-- A timer can run out, which makes a socket that connects. -/
lemma Holds.recovers_of_closed (h : Holds streams s earlier k) (hstopped : s.stopped = false)
    (hk : k.readyState = .closed) : Recovers streams onMessage s := by
  have hpos : 0 < s.timers.length :=
    List.length_pos_iff.2 fun hnil => h.running hstopped hnil hk
  obtain ⟨earlier', k', hs'⟩ := h.onTimeout hpos
  have hconnect : connect { s with timers := s.timers.eraseIdx 0 } =
      { s with timers := s.timers.eraseIdx 0, sock := some s.sockets.length,
               sockets := s.sockets ++ [.new] } := if_neg (by simp [hstopped])
  have hk' : k' = .new := by
    have hsockets := hs'.sockets
    rw [hconnect] at hsockets
    exact (List.cons.inj (List.append_inj' hsockets rfl).2).1.symm
  have hrest : Recovers streams onMessage (connect { s with timers := s.timers.eraseIdx 0 }) :=
    hs'.recovers_of_connecting (by rw [hk']; rfl)
  exact hrest.cons (e := .timeout 0) hpos rfl

/-- From any state before the call of `close` some events lead to an open connection. -/
theorem recovers (h : (system streams onMessage).Reachable s) (hstopped : s.stopped = false) :
    Recovers streams onMessage s := by
  obtain ⟨earlier, k, hs⟩ := exists_holds h
  by_cases hk : k.readyState = .closed
  · exact hs.recovers_of_closed hstopped hk
  · -- a live socket can close first
    have hrunning : (s.setReady earlier.length .closed).onClose.stopped = false := by
      rw [onClose]
      split <;> exact hstopped
    have hrest : Recovers streams onMessage (s.setReady earlier.length .closed).onClose :=
      (hs.onClosed hk).recovers_of_closed hrunning rfl
    exact hrest.cons (e := .closed earlier.length) ⟨k, hs.getElem?_eq, hk⟩ rfl

/-- There is never more than one live socket or timer, and there is one until the subscription is
closed, from which it can get back to an open connection; every connection gets each
subscription once, and the subscription itself never throws. -/
theorem one_connection (h : (system streams onMessage).Reachable s) :
    s.pending ≤ 1 ∧ (s.stopped = false → s.pending = 1 ∧ Recovers streams onMessage s) ∧
      (∀ k ∈ s.sockets, Subscribed streams k) ∧
      ∀ e, s.enabled e → (∀ n raw, e ≠ .message n raw) →
        ∃ t, s.handle streams onMessage e = .ok t := by
  obtain ⟨earlier, k, hs⟩ := exists_holds h
  refine ⟨?_, ?_, ?_, ?_⟩
  · rw [hs.pending_eq]
    by_cases hnil : s.timers = []
    · rw [hnil, List.length_nil]
      split <;> omega
    · obtain ⟨hlen, hk⟩ := hs.waiting hnil
      simp [hlen, live, hk]
  · intro hstopped
    refine ⟨?_, recovers h hstopped⟩
    rw [hs.pending_eq]
    by_cases hnil : s.timers = []
    · simp [hnil, live, hs.running hstopped hnil]
    · obtain ⟨hlen, hk⟩ := hs.waiting hnil
      simp [hlen, live, hk]
  · intro l hl
    rw [hs.sockets] at hl
    exact hs.subscribed l hl
  · intro e he hmessage
    rcases hs.step onMessage he with ⟨t, ht, -⟩ | ⟨n, raw, rfl, -⟩
    · exact ⟨t, ht⟩
    · exact absurd rfl (hmessage n raw)

/-- A connection that has closed before it opened. -/
theorem one_connection_failed : ∃ s,
    (system [.contractLevelEvents] fun _ => .ok (none : Option Unit)).Reachable s ∧
    s.pending ≤ 1 ∧ (s.stopped = false → s.pending = 1 ∧
      Recovers [.contractLevelEvents] (fun _ => .ok (none : Option Unit)) s) ∧
    (∀ k ∈ s.sockets, Subscribed [.contractLevelEvents] k) ∧
    ∀ e, s.enabled e → (∀ n raw, e ≠ .message n raw) → ∃ t,
      s.handle [.contractLevelEvents] (fun _ => .ok (none : Option Unit)) e = .ok t :=
  have h : (system [.contractLevelEvents] fun _ => .ok (none : Option Unit)).Reachable
      (start.connect.setReady 0 .closed).onClose :=
    .step (.init rfl) trivial (a := .closed 0) ⟨⟨.new, rfl, by decide⟩, rfl⟩
  ⟨_, h, one_connection h⟩

/-! ### After the call of `close` -/

/-- What stays as it is from a state on: the sockets, and what has been sent over them. -/
structure Silent (s t : Subscription) : Prop where
  stopped : t.stopped = true
  sent : t.sockets.map Socket.sent = s.sockets.map Socket.sent
  closing : ∀ k ∈ t.sockets, k.readyState = .closing ∨ k.readyState = .closed

lemma Holds.closing (h : Holds streams s earlier k) (hstopped : s.stopped = true) :
    ∀ l ∈ s.sockets, l.readyState = .closing ∨ l.readyState = .closed := by
  intro l hl
  rw [h.sockets] at hl
  rcases List.mem_append.1 hl with hl | hl
  · exact Or.inr (h.closed l hl)
  · rw [List.mem_singleton.1 hl]
    exact h.stopped hstopped

/-- Where no socket connects or is open, an event changes none of them but to close it. -/
lemma Holds.keeps_sent (h : Holds streams s earlier k) (hstopped : s.stopped = true)
    (hst : (system streams onMessage).step s e t) :
    t.stopped = true ∧ t.sockets.map Socket.sent = s.sockets.map Socket.sent := by
  obtain ⟨he, ht⟩ := hst
  cases e with
  | opened n =>
    obtain ⟨l, hn, hl⟩ := he
    have := h.closing hstopped l (List.mem_of_getElem? hn)
    simp [hl] at this
  | message n raw =>
    obtain ⟨_, _, ht⟩ := bind_eq_ok.1 ht
    cases ht
    exact ⟨hstopped, rfl⟩
  | error n =>
    cases ht
    exact ⟨hstopped, rfl⟩
  | closing n =>
    obtain ⟨l, hn, hl⟩ := he
    have := h.closing hstopped l (List.mem_of_getElem? hn)
    rcases hl with hl | hl <;> simp [hl] at this
  | closed n =>
    obtain ⟨l, hn, hl⟩ := he
    obtain ⟨rfl, rfl⟩ := h.eq_of_live hn hl
    cases ht
    rw [onClose, if_pos (by exact hstopped), setReady_sockets h.sockets, h.sockets]
    exact ⟨hstopped, by simp⟩
  | timeout i =>
    cases ht
    rw [connect, if_pos (by exact hstopped)]
    exact ⟨hstopped, rfl⟩
  | close =>
    cases ht
    simp only [Subscription.close, h.sock, modifySocket, h.sockets, modify_snoc]
    refine ⟨trivial, ?_⟩
    rw [List.map_append, List.map_append, List.map_singleton, List.map_singleton]
    cases hready : k.readyState <;> simp [Socket.close, hready]

/-- Once `close` has been called, no socket is made and nothing is sent any more, and no socket
is open. -/
theorem silent_of_continues (h : (system streams onMessage).Reachable s)
    (hcont : (system streams onMessage).Continues s.close t) : Silent s.close t := by
  obtain ⟨earlier, k, hs⟩ := exists_holds h
  have hcall := hs.onCall
  have hstopped : s.close.stopped = true := by
    rw [Subscription.close]
    split <;> rfl
  have hinv : Silent s.close t ∧ ∃ earlier k, Holds streams t earlier k := by
    refine hcont.invariant
      (I := fun t => Silent s.close t ∧ ∃ earlier k, Holds streams t earlier k) ?_ ?_
    · rintro t e u ⟨ht, earlier, k, hk⟩ hu
      obtain ⟨hustopped, husent⟩ := hk.keeps_sent ht.stopped hu
      obtain ⟨earlier', k', hk'⟩ := hk.of_step hu
      exact ⟨⟨hustopped, husent.trans ht.sent, hk'.closing hustopped⟩, earlier', k', hk'⟩
    · exact ⟨⟨hstopped, rfl, hcall.closing hstopped⟩, _, _, hcall⟩
  exact hinv.1

/-- The first connection has failed, and a timer will open the next one. -/
def reconnecting : Subscription :=
  (start.connect.setReady 0 .closed).onClose

/-- A timer that runs out after `close` has been called opens nothing. -/
theorem silent_reconnecting :
    reconnecting.timers.length = 1 ∧ ∃ t,
      (system [.block] fun _ => .ok (none : Option Unit)).step reconnecting.close (.timeout 0) t ∧
        t.timers = [] ∧ t.sockets.length = 1 ∧ Silent reconnecting.close t := by
  have hstep : (system [.block] fun _ => .ok (none : Option Unit)).step reconnecting.close
      (.timeout 0) (connect { reconnecting.close with timers := [] }) := ⟨Nat.one_pos, rfl⟩
  have hreachable : (system [.block] fun _ => .ok (none : Option Unit)).Reachable reconnecting :=
    .step (.init rfl) trivial (a := .closed 0) ⟨⟨.new, rfl, by decide⟩, rfl⟩
  exact ⟨rfl, _, hstep, rfl, rfl, silent_of_continues hreachable (.single ⟨_, hstep⟩)⟩

/-! ### The waits -/

/-- The connections that have closed since one has opened. -/
def failures (events : List SubscriptionEvent) : ℕ :=
  events.foldl (fun n e => match e with
    | .opened _ => 0
    | .closed _ => n + 1
    | _ => n) 0

/-- The backoff after some failures. -/
def doubled (n : ℕ) : Number :=
  (fun x => x.mul (.finite 2))^[n] firstBackoff

lemma doubled_succ (n : ℕ) : doubled (n + 1) = (doubled n).mul (.finite 2) :=
  Function.iterate_succ_apply' _ _ _

/-- Up to the longest wait, doubling is exact. -/
lemma doubled_eq (hn : n ≤ 6) : doubled n = .finite (500 * 2 ^ n) := by
  induction n with
  | zero => norm_num [doubled, firstBackoff]
  | succ n ih =>
    have hlt : |(500 * 2 ^ (n + 1) : ℤ)| < 2 ^ 53 := by
      rw [abs_of_nonneg (by positivity)]
      have : (2 : ℤ) ^ (n + 1) ≤ 2 ^ 6 := pow_le_pow_right₀ (by norm_num) hn
      omega
    have hround := Number.round_intCast hlt
    push_cast at hround
    rw [doubled_succ, ih (by omega), Number.mul, mul_assoc, ← pow_succ, hround]

/-- After that it stays above the longest wait. -/
lemma le_doubled (n : ℕ) : doubled (n + 7) = .infinity false ∨
    ∃ q : ℚ, doubled (n + 7) = .finite q ∧ 2 ^ 15 ≤ q := by
  induction n with
  | zero =>
    rw [doubled_succ, doubled_eq le_rfl]
    exact Number.pow_le_round (by norm_num)
  | succ n ih =>
    rw [show n + 1 + 7 = n + 7 + 1 by omega, doubled_succ]
    rcases ih with hinf | ⟨q, hq, hle⟩
    · rw [hinf]
      exact Or.inl (by simp [Number.mul])
    · rw [hq]
      exact Number.pow_le_round (by linarith)

/-- The wait after some failures. -/
lemma wait_doubled (n : ℕ) : wait (doubled n) = .finite (min (500 * 2 ^ n) 30000) := by
  rcases Nat.lt_or_ge n 7 with hlt | hge
  · rw [doubled_eq (by omega), wait, maxWait, Number.finite_min_finite]
  · obtain ⟨m, rfl⟩ : ∃ m, n = m + 7 := ⟨n - 7, by omega⟩
    have hpow : (2 : ℚ) ^ 7 ≤ 2 ^ (m + 7) := pow_le_pow_right₀ (by norm_num) (by omega)
    rw [min_eq_right (by linarith)]
    rcases le_doubled m with hinf | ⟨q, hq, hle⟩
    · rw [hinf]
      rfl
    · rw [hq, wait, maxWait, Number.finite_min_finite, inf_of_le_right (by linarith)]

lemma failures_snoc (events : List SubscriptionEvent) (e : SubscriptionEvent) :
    failures (events ++ [e]) = match e with
      | .opened _ => 0
      | .closed _ => failures events + 1
      | _ => failures events := by
  rw [failures, List.foldl_append, ← failures]
  rfl

/-- The backoff and the timers, in terms of the failures so far. -/
structure Backs (s : Subscription) (events : List SubscriptionEvent) : Prop where
  backoff : s.stopped = false → s.backoff = doubled (failures events)
  timers : ∀ w ∈ s.timers, 0 < failures events ∧ w = wait (doubled (failures events))

lemma Backs.step {events : List SubscriptionEvent} (hb : Backs s events)
    (h : Holds streams s earlier k) (hst : (system streams onMessage).step s e t) :
    Backs t (events ++ [e]) := by
  obtain ⟨he, ht⟩ := hst
  cases e with
  | opened n =>
    obtain ⟨l, hn, hl⟩ := he
    obtain ⟨rfl, rfl⟩ := h.eq_of_live hn (by simp [hl])
    obtain ⟨t', ht', -, -, htimers, hbackoff⟩ := h.onOpen hl
    rw [Subscription.handle, ht'] at ht
    cases ht
    have hnil := h.timers_eq_nil (by simp [hl])
    refine ⟨fun _ => ?_, ?_⟩
    · rw [failures_snoc]
      exact hbackoff
    · rw [htimers, hnil]
      simp
  | closed n =>
    obtain ⟨l, hn, hl⟩ := he
    obtain ⟨rfl, rfl⟩ := h.eq_of_live hn hl
    cases ht
    have hnil := h.timers_eq_nil hl
    rw [onClose]
    by_cases hstopped : s.stopped = true
    · rw [if_pos (by exact hstopped)]
      refine ⟨fun hrunning => absurd hrunning (by simp [setReady, modifySocket, hstopped]), ?_⟩
      intro w hw
      exact absurd (hnil ▸ hw) List.not_mem_nil
    · rw [if_neg (by exact hstopped)]
      have hbackoff : s.backoff.mul (.finite 2) = doubled (failures events + 1) := by
        rw [doubled_succ, hb.backoff (by simpa using hstopped)]
      refine ⟨fun _ => ?_, ?_⟩
      · rw [failures_snoc]
        exact hbackoff
      · intro w hw
        rw [failures_snoc]
        simp only [setReady, modifySocket, hnil, List.nil_append, List.mem_singleton] at hw
        exact ⟨Nat.succ_pos _, by rw [hw, hbackoff]⟩
  | message n raw =>
    obtain ⟨_, _, ht⟩ := bind_eq_ok.1 ht
    cases ht
    exact ⟨by rw [failures_snoc]; exact hb.backoff, by rw [failures_snoc]; exact hb.timers⟩
  | error n =>
    cases ht
    exact ⟨by rw [failures_snoc]; exact hb.backoff, by rw [failures_snoc]; exact hb.timers⟩
  | closing n =>
    cases ht
    exact ⟨by rw [failures_snoc]; exact hb.backoff, by rw [failures_snoc]; exact hb.timers⟩
  | timeout i =>
    cases ht
    have htimers : ∀ w ∈ s.timers.eraseIdx i,
        0 < failures events ∧ w = wait (doubled (failures events)) :=
      fun w hw => hb.timers w (List.mem_of_mem_eraseIdx hw)
    rw [connect]
    split
    · exact ⟨by rw [failures_snoc]; exact hb.backoff, by rw [failures_snoc]; exact htimers⟩
    · exact ⟨by rw [failures_snoc]; exact hb.backoff, by rw [failures_snoc]; exact htimers⟩
  | close =>
    cases ht
    have hclose : s.close.timers = s.timers ∧ s.close.stopped = true := by
      rw [Subscription.close]
      split <;> exact ⟨rfl, rfl⟩
    refine ⟨fun hrunning => absurd hrunning (by simp [hclose.2]), ?_⟩
    rw [failures_snoc, hclose.1]
    exact hb.timers

/-- The timer after some failures in a row waits twice as long as the one before it, up to half a
minute; an open connection starts the count again. -/
theorem reconnect_wait {events : List SubscriptionEvent}
    (h : (system streams onMessage).recorded.Reachable (s, events)) :
    ∀ w ∈ s.timers, 0 < failures events ∧
      w = .finite (min (500 * 2 ^ failures events) 30000) := by
  have hinv : Backs s events ∧ ∃ earlier k, Holds streams s earlier k := by
    refine h.invariant (I := fun s => Backs s.1 s.2 ∧ ∃ earlier k, Holds streams s.1 earlier k)
      ?_ ?_
    · rintro ⟨s, events⟩ ⟨rfl, rfl⟩
      refine ⟨⟨fun _ => rfl, ?_⟩, [], .new, Holds.start⟩
      intro w hw
      exact absurd hw List.not_mem_nil
    · rintro ⟨s, events⟩ e ⟨t, events'⟩ ⟨hb, earlier, k, hs⟩ - ⟨hst, rfl⟩
      exact ⟨hb.step hs hst, hs.of_step hst⟩
  intro w hw
  obtain ⟨hpos, hw⟩ := hinv.1.timers w hw
  exact ⟨hpos, by rw [hw, wait_doubled]⟩

/-- The first wait is a second. -/
theorem reconnect_wait_first : ∃ s, (system [] fun _ => .ok (none : Option Unit)).recorded.Reachable
    (s, [.closed 0]) ∧ ∀ w ∈ s.timers, 0 < failures [.closed 0] ∧
      w = .finite (min (500 * 2 ^ failures [.closed 0]) 30000) :=
  have h : (system [] fun _ => .ok (none : Option Unit)).recorded.Reachable
      (reconnecting, [.closed 0]) :=
    .step (.init (s := (start.connect, [])) ⟨rfl, rfl⟩) trivial (a := .closed 0)
      ⟨⟨⟨.new, rfl, by decide⟩, rfl⟩, rfl⟩
  ⟨_, h, reconnect_wait h⟩

end

end ArwaAgent.CsprCloud.Subscription
