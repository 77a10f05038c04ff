import ArwaAgent.CsprCloud.DepositConsumer
import ArwaAgent.Lib.HighWater
import ArwaAgent.Lib.Record

/-!
# Which deposits are delivered

The consumer is one that keeps a high-water mark: a poll delivers the count it reads, if it
delivers anything, and no deposit between two counts.  Over every run, whatever the node
and the callback answer, it passes every deposit after the first count it has seen and up
to the last one on exactly once, in order, if and only if the contract was not empty at
first, or stayed so, no two deposits came between two polls, and no count on which the
callback failed was seen again.
-/

namespace ArwaAgent.CsprCloud

open Js Effects Effects.Code HighWater

/-- A call of the consumer and its answer. -/
abbrev ConsumerReply : Type := Reply ConsumerOp ConsumerAns

/-- The count that a poll reads out of the body of a response, if there is one. -/
def readCount (data : Value) : Option Number :=
  match parsedCount data with
  | .undefined | .null => none
  | v => v.toNumber.toOption

/-- The count that a poll has seen. -/
def countSeen : ConsumerReply → Option Number
  | ⟨.stateGetItem _ _ _, .ok data⟩ => readCount data
  | _ => none

/-- The id that has been passed to the callback. -/
def idDelivered : ConsumerReply → Option Number
  | ⟨.onDeposit e, _⟩ => some e.id
  | _ => none

/-- The id on which the callback has thrown. -/
def idRefused : ConsumerReply → Option Number
  | ⟨.onDeposit e, .error _⟩ => some e.id
  | _ => none

/-- A number of deposits, as a JavaScript number. -/
def deposits (n : ℕ) : Number := .finite n

/-- The record and the variable `lastSeenId` of a consumer that has come as far as `s`. -/
structure Follows (replies : List ConsumerReply) (lastSeenId : Number) (s : Progress) : Prop where
  seen : replies.filterMap countSeen = s.seen.map deposits
  delivered : replies.filterMap idDelivered = s.delivered.map deposits
  refused : replies.filterMap idRefused = s.refused.map deposits
  mark : lastSeenId = deposits s.mark

/-- As long as the counts are numbers of deposits, the consumer has come somewhere. -/
def Consistent (replies : List ConsumerReply) (lastSeenId : Number) : Prop :=
  ∀ counts : List ℕ, replies.filterMap countSeen = counts.map deposits →
    ∃ s, Progress.Reached s ∧ Follows replies lastSeenId s

lemma deposits_lt (m n : ℕ) : (deposits m).lt (deposits n) = decide (m < n) := by
  simp [deposits]

/-! ### One poll -/

section

variable {replies : List ConsumerReply} {lastSeenId : Number}

lemma Consistent.silent (h : Consistent replies lastSeenId) {new : List ConsumerReply}
    (hseen : new.filterMap countSeen = []) (hdelivered : new.filterMap idDelivered = [])
    (hrefused : new.filterMap idRefused = []) : Consistent (replies ++ new) lastSeenId := by
  intro counts hcounts
  rw [List.filterMap_append, hseen, List.append_nil] at hcounts
  obtain ⟨s, hs, hfollows⟩ := h counts hcounts
  refine ⟨s, hs, ?_, ?_, ?_, hfollows.mark⟩
  · simp [hseen, hfollows.seen]
  · simp [hdelivered, hfollows.delivered]
  · simp [hrefused, hfollows.refused]

lemma Follows.append {s : Progress} (h : Follows replies lastSeenId s) {new : List ConsumerReply}
    {seen delivered refused : List ℕ} {mark : ℕ}
    (hseen : new.filterMap countSeen = seen.map deposits)
    (hdelivered : new.filterMap idDelivered = delivered.map deposits)
    (hrefused : new.filterMap idRefused = refused.map deposits) :
    Follows (replies ++ new) (deposits mark)
      ⟨s.seen ++ seen, s.delivered ++ delivered, s.refused ++ refused, mark⟩ := by
  refine ⟨?_, ?_, ?_, rfl⟩
  · simp [h.seen, hseen]
  · simp [h.delivered, hdelivered]
  · simp [h.refused, hrefused]

lemma Consistent.counted (h : Consistent replies lastSeenId) {new : List ConsumerReply}
    {c lastSeenId' : Number} (hseen : new.filterMap countSeen = [c])
    (hstep : ∀ s n, c = deposits n → Follows replies lastSeenId s →
      ∃ t, Progress.Step s t ∧ Follows (replies ++ new) lastSeenId' t) :
    Consistent (replies ++ new) lastSeenId' := by
  intro counts hcounts
  rw [List.filterMap_append, hseen] at hcounts
  obtain ⟨before, last, rfl, hbefore, hlast⟩ := List.append_eq_map_iff.1 hcounts
  obtain ⟨n, rfl, hn⟩ := List.map_eq_singleton_iff.1 hlast
  obtain ⟨s, hs, hfollows⟩ := h before hbefore.symm
  obtain ⟨t, ht, hfollows'⟩ := hstep s n hn.symm hfollows
  exact ⟨t, hs.tail ht, hfollows'⟩

lemma Consistent.stale (h : Consistent replies lastSeenId) {new : List ConsumerReply} {c : Number}
    (hseen : new.filterMap countSeen = [c]) (hdelivered : new.filterMap idDelivered = [])
    (hrefused : new.filterMap idRefused = []) (hc : c = .finite 0 ∨ lastSeenId.lt c = false) :
    Consistent (replies ++ new) lastSeenId := by
  refine h.counted hseen fun s n hn hfollows => ?_
  have hle : n ≤ s.mark := by
    rw [hn, hfollows.mark, deposits_lt, decide_eq_false_iff_not] at hc
    rcases hc with hzero | hc
    · have hzero' : (n : ℚ) = 0 := Number.finite.inj hzero
      have : n = 0 := by exact_mod_cast hzero'
      omega
    · omega
  have hseen' : new.filterMap countSeen = [n].map deposits := by rw [hseen, hn]; rfl
  have hdelivered' : new.filterMap idDelivered = [].map deposits := hdelivered
  have hrefused' : new.filterMap idRefused = [].map deposits := hrefused
  have hnew := @Follows.append _ _ s hfollows _ _ _ _ s.mark hseen' hdelivered' hrefused'
  rw [List.append_nil, List.append_nil, ← hfollows.mark] at hnew
  exact ⟨_, .stale s hle, hnew⟩

/-- A count above the mark, with what the poll does with it. -/
lemma Consistent.fresh (h : Consistent replies lastSeenId) {new : List ConsumerReply}
    {c lastSeenId' : Number} (hseen : new.filterMap countSeen = [c])
    (hc : lastSeenId.lt c = true)
    (hdone :
      ((Number.finite 0).lt lastSeenId = false ∧ lastSeenId' = c ∧
        new.filterMap idDelivered = [] ∧ new.filterMap idRefused = []) ∨
      ((Number.finite 0).lt lastSeenId = true ∧ lastSeenId' = c ∧
        new.filterMap idDelivered = [c] ∧ new.filterMap idRefused = []) ∨
      ((Number.finite 0).lt lastSeenId = true ∧ lastSeenId' = lastSeenId ∧
        new.filterMap idDelivered = [c] ∧ new.filterMap idRefused = [c])) :
    Consistent (replies ++ new) lastSeenId' := by
  refine h.counted hseen fun s n hn hfollows => ?_
  have hzero : (Number.finite 0).lt lastSeenId = decide (0 < s.mark) := by
    rw [hfollows.mark]
    exact_mod_cast deposits_lt 0 s.mark
  rw [hn, hfollows.mark, deposits_lt, decide_eq_true_eq] at hc
  rw [hzero, decide_eq_false_iff_not, decide_eq_true_eq] at hdone
  have hseen' : new.filterMap countSeen = [n].map deposits := by rw [hseen, hn]; rfl
  rcases hdone with ⟨hmark, rfl, hdel, href⟩ | ⟨hmark, rfl, hdel, href⟩ | ⟨hmark, rfl, hdel, href⟩
  · have hdel' : new.filterMap idDelivered = [].map deposits := hdel
    have href' : new.filterMap idRefused = [].map deposits := href
    have hnew := @Follows.append _ _ s hfollows _ _ _ _ n hseen' hdel' href'
    rw [List.append_nil, List.append_nil, ← hn] at hnew
    exact ⟨_, .noted s (by omega) (by omega), hnew⟩
  · have hdel' : new.filterMap idDelivered = [n].map deposits := by rw [hdel, hn]; rfl
    have href' : new.filterMap idRefused = [].map deposits := href
    have hnew := @Follows.append _ _ s hfollows _ _ _ _ n hseen' hdel' href'
    rw [List.append_nil, ← hn] at hnew
    exact ⟨_, .accepted s hmark hc, hnew⟩
  · have hdel' : new.filterMap idDelivered = [n].map deposits := by rw [hdel, hn]; rfl
    have href' : new.filterMap idRefused = [n].map deposits := by rw [href, hn]; rfl
    have hnew := @Follows.append _ _ s hfollows _ _ _ _ s.mark hseen' hdel' href'
    rw [← hfollows.mark] at hnew
    exact ⟨_, .refused s hmark hc, hnew⟩

end

/-! ### The polls of a run -/

section

variable {cfg : ConsumerConfig} {depositHash apiKey : String} {replies : List ConsumerReply}
  {lastSeenId : Number}

/-- What a fetch brings: nothing, with no count or with zero, or an event with the count. -/
def Fetched (replies replies' : List ConsumerReply) (events : List StakeholderDepositEvent) :
    Prop :=
  ∃ new, replies' = replies ++ new ∧ new.filterMap idDelivered = [] ∧
    new.filterMap idRefused = [] ∧
    ((events = [] ∧ (new.filterMap countSeen = [] ∨ new.filterMap countSeen = [.finite 0])) ∨
      ∃ e, events = [e] ∧ new.filterMap countSeen = [e.id])

/-- `Number(v ?? 0)` is the count that is read, or zero where there is none. -/
lemma readCount_toNumber (data : Value) :
    (∀ c, ((parsedCount data).orElse (.num (.finite 0))).toNumber = .ok c →
      readCount data = some c ∨ (readCount data = none ∧ c = .finite 0)) ∧
    (∀ e, ((parsedCount data).orElse (.num (.finite 0))).toNumber = .error e →
      readCount data = none) := by
  rw [readCount]
  cases parsedCount data with
  | undefined | null =>
    refine ⟨fun c hc => Or.inr ⟨rfl, ?_⟩, fun _ _ => rfl⟩
    exact (Except.ok.inj hc).symm
  | bool b | num x | str s | arr elems | obj fields =>
    refine ⟨fun c hc => Or.inl ?_, fun e he => ?_⟩
    · exact congrArg Except.toOption hc
    · exact congrArg Except.toOption he

lemma fetched_nil {new : List ConsumerReply} (hseen : new.filterMap countSeen = [])
    (hdelivered : new.filterMap idDelivered = []) (hrefused : new.filterMap idRefused = []) :
    Fetched replies (replies ++ new) [] :=
  ⟨new, rfl, hdelivered, hrefused, Or.inl ⟨rfl, Or.inl hseen⟩⟩

/-- The scan of the last five ids, where it ends, has done nothing. -/
lemma scanRecentIds_meets {count : Number} :
    Meets recorder replies lastSeenId (scanRecentIds count)
      fun replies' lastSeenId' r => replies' = replies ∧ lastSeenId' = lastSeenId ∧ r = .ok () := by
  rw [scanRecentIds]
  split
  · exact ⟨rfl, rfl, rfl⟩
  · exact meets_ask.2 ⟨trivial, fun never _ => never.elim⟩

lemma fetchRecentDeposits_meets :
    Meets recorder replies lastSeenId (fetchRecentDeposits cfg depositHash apiKey)
      fun replies' lastSeenId' r => lastSeenId' = lastSeenId ∧
        ∃ events, r = .ok events ∧ Fetched replies replies' events := by
  refine Meets.tryCatch (R := fun replies' lastSeenId' r => lastSeenId' = lastSeenId ∧
    Fetched replies replies' (r.toOption.getD [])) ?_ ?_ ?_
  · refine meets_ask_bind.2 ⟨trivial, fun response _ => ?_⟩
    cases response with
    | error e => exact ⟨rfl, fetched_nil rfl rfl rfl⟩
    | ok data =>
      obtain ⟨hread, hnone⟩ := readCount_toNumber data
      refine meets_result_bind.2 ?_
      cases hnum : ((parsedCount data).orElse (.num (.finite 0))).toNumber with
      | error e =>
        refine ⟨rfl, fetched_nil ?_ rfl rfl⟩
        simp [countSeen, hnone e hnum]
      | ok count =>
        by_cases hzero : count = .finite 0
        · simp only [hzero, if_true]
          refine ⟨rfl, _, rfl, rfl, rfl, Or.inl ⟨rfl, ?_⟩⟩
          rcases hread count hnum with hsome | ⟨hn, -⟩
          · simp [countSeen, hsome, hzero]
          · simp [countSeen, hn]
        · have hsome : readCount data = some count := by
            rcases hread count hnum with hsome | ⟨-, hcount⟩
            · exact hsome
            · exact absurd hcount hzero
          simp only [hzero, if_false]
          refine Meets.bind scanRecentIds_meets ?_ ?_
          · rintro _ _ ⟨⟩ ⟨rfl, rfl, -⟩
            refine meets_ask_bind.2 ⟨trivial, fun now _ => ⟨rfl, ?_⟩⟩
            exact ⟨_, List.append_assoc _ _ _, rfl, rfl, Or.inr ⟨_, rfl, by simp [countSeen, hsome]⟩⟩
          · rintro _ _ e ⟨-, -, ⟨⟩⟩
  · rintro replies' lastSeenId' events ⟨hmark, hfetched⟩
    exact ⟨hmark, events, rfl, hfetched⟩
  · rintro replies' lastSeenId' e ⟨hmark, hfetched⟩
    exact ⟨hmark, [], rfl, hfetched⟩

lemma passOn_stale {e : StakeholderDepositEvent} (h : lastSeenId.lt e.id = false) :
    Meets recorder replies lastSeenId (passOn [e])
      fun replies' lastSeenId' _ => replies' = replies ∧ lastSeenId' = lastSeenId := by
  rw [passOn, meets_get_bind, if_neg (by simp [h])]
  exact ⟨rfl, rfl⟩

/-- The first event above the mark is only noted, when the mark is zero. -/
lemma passOn_noted {e : StakeholderDepositEvent} (h : lastSeenId.lt e.id = true)
    (hzero : (Number.finite 0).lt lastSeenId = false) :
    Meets recorder replies lastSeenId (passOn [e])
      fun replies' lastSeenId' _ => replies' = replies ∧ lastSeenId' = e.id := by
  rw [passOn, meets_get_bind, if_pos h, if_neg (by simp [hzero])]
  exact ⟨rfl, rfl⟩

/-- An event above the mark is passed on, and becomes the mark unless the callback throws. -/
lemma passOn_fresh {e : StakeholderDepositEvent} (h : lastSeenId.lt e.id = true)
    (hzero : (Number.finite 0).lt lastSeenId = true) :
    Meets recorder replies lastSeenId (passOn [e])
      fun replies' lastSeenId' _ => ∃ r : Except Error Unit,
        replies' = replies ++ [⟨.onDeposit e, r⟩] ∧
          lastSeenId' = if r.isOk then e.id else lastSeenId := by
  rw [passOn, meets_get_bind, if_pos h, if_pos hzero]
  refine meets_ask_bind.2 ⟨trivial, fun r _ => ?_⟩
  cases r with
  | ok _ => exact ⟨.ok (), rfl, rfl⟩
  | error e => exact ⟨.error e, rfl, rfl⟩

/-- Passing on the event of a fetch keeps the consumer consistent. -/
lemma passOn_meets (h : Consistent replies lastSeenId) {new : List ConsumerReply}
    {e : StakeholderDepositEvent} (hseen : new.filterMap countSeen = [e.id])
    (hdelivered : new.filterMap idDelivered = []) (hrefused : new.filterMap idRefused = []) :
    Meets recorder (replies ++ new) lastSeenId (passOn [e])
      fun replies' lastSeenId' _ => Consistent replies' lastSeenId' := by
  cases hlt : lastSeenId.lt e.id with
  | false =>
    refine (passOn_stale hlt).mono ?_
    rintro _ _ - ⟨rfl, rfl⟩
    exact h.stale hseen hdelivered hrefused (Or.inr hlt)
  | true =>
    cases hzero : (Number.finite 0).lt lastSeenId with
    | false =>
      refine (passOn_noted hlt hzero).mono ?_
      rintro _ _ - ⟨rfl, rfl⟩
      exact h.fresh hseen hlt (Or.inl ⟨hzero, rfl, hdelivered, hrefused⟩)
    | true =>
      refine (passOn_fresh hlt hzero).mono ?_
      rintro _ _ - ⟨r, rfl, rfl⟩
      rw [List.append_assoc]
      refine h.fresh ?_ hlt (Or.inr ?_)
      · simp [hseen, countSeen]
      · cases r with
        | ok _ =>
          refine Or.inl ⟨hzero, rfl, ?_, ?_⟩
          · simp [hdelivered, idDelivered]
          · simp [hrefused, idRefused]
        | error _ =>
          refine Or.inr ⟨hzero, rfl, ?_, ?_⟩
          · simp [hdelivered, idDelivered]
          · simp [hrefused, idRefused]

/-- A poll keeps the consumer consistent. -/
lemma poll_meets (h : Consistent replies lastSeenId) :
    Meets recorder replies lastSeenId (poll cfg depositHash apiKey)
      fun replies' lastSeenId' r => r = .ok () ∧ Consistent replies' lastSeenId' := by
  refine Meets.tryCatch (R := fun replies' lastSeenId' _ => Consistent replies' lastSeenId')
    ?_ (fun _ _ _ h => ⟨rfl, h⟩) fun _ _ _ h => ⟨rfl, h⟩
  refine Meets.bind fetchRecentDeposits_meets ?_ ?_
  · rintro replies' _ events ⟨rfl, _, ⟨⟩, new, rfl, hdelivered, hrefused, hevents⟩
    rcases hevents with ⟨rfl, hseen⟩ | ⟨e, rfl, hseen⟩
    · rcases hseen with hseen | hseen
      · exact h.silent hseen hdelivered hrefused
      · exact h.stale hseen hdelivered hrefused (Or.inl rfl)
    · exact passOn_meets h hseen hdelivered hrefused
  · rintro _ _ e ⟨-, _, ⟨⟩, -⟩

lemma polls_meets (n : ℕ) (h : Consistent replies lastSeenId) :
    Meets recorder replies lastSeenId (polls cfg depositHash apiKey n)
      fun replies' lastSeenId' _ => Consistent replies' lastSeenId' := by
  induction n generalizing replies lastSeenId with
  | zero => exact h
  | succ n ih =>
    refine Meets.bind (poll_meets h) (fun _ _ _ h => ih h.2) ?_
    rintro _ _ e ⟨⟨⟩, -⟩

lemma consistent_start : Consistent [] (deposits 0) := by
  intro counts hcounts
  obtain rfl : counts = [] := List.map_eq_nil_iff.1 hcounts.symm
  exact ⟨.start, .refl, rfl, rfl, rfl, rfl⟩

lemma startStakeholderDepositConsumer_meets (n : ℕ) :
    Meets recorder [] lastSeenId (startStakeholderDepositConsumer cfg n)
      fun replies _ _ => ∃ mark, Consistent replies mark := by
  rw [startStakeholderDepositConsumer]
  split
  · exact ⟨_, consistent_start⟩
  · have hstart : (Number.finite 0) = deposits 0 := by simp [deposits]
    refine meets_bind.2 (meets_set.2 ?_)
    rw [hstart]
    exact (polls_meets n consistent_start).mono fun _ mark _ h => ⟨mark, h⟩

end

lemma deposits_injective : Function.Injective deposits := by
  intro m n h
  exact_mod_cast Number.finite.inj h

/-- The deposits after the first count and up to the last one are passed on exactly once, in
increasing order, if and only if the counts are steady: the contract was not empty at first, or
stayed so, at most one deposit came between two polls, and no count was seen again after the
callback had thrown on it. -/
theorem deposits_delivered_once_iff {cfg : ConsumerConfig} {n : ℕ} {lastSeenId : Number}
    {replies : List ConsumerReply} {res : Except Error Unit × Number}
    (hrun : Program.Runs recording [] ((startStakeholderDepositConsumer cfg n).toProgram lastSeenId)
      replies res)
    {counts : List ℕ} (hcounts : replies.filterMap countSeen = counts.map deposits)
    (hgrows : counts.Pairwise (· ≤ ·)) :
    ∃ ids refused : List ℕ, replies.filterMap idDelivered = ids.map deposits ∧
      replies.filterMap idRefused = refused.map deposits ∧
      (DeliveredOnce (counts.headD 0) (counts.getLastD 0) ids ↔ Steady counts refused) := by
  obtain ⟨mark, hconsistent⟩ := (startStakeholderDepositConsumer_meets n).recorded hrun
  obtain ⟨s, hs, hfollows⟩ := hconsistent counts hcounts
  obtain rfl : counts = s.seen :=
    deposits_injective.list_map (hcounts.symm.trans hfollows.seen)
  exact ⟨s.delivered, s.refused, hfollows.delivered, hfollows.refused,
    Progress.deliveredOnce_iff hs hgrows⟩

/-! ### Two polls of a contract that fills up -/

/-- The body of a response with a count. -/
def countBody (n : ℕ) : Value :=
  .obj [("result", .obj [("stored_value", .obj [("CLValue", .obj
    [("parsed", .num (deposits n))])])])]

/-- A consumer with a contract and a key. -/
def watching : ConsumerConfig where
  stakeholderDepositContractHash := some "hash-deposit"
  csprCloudApiKey := some "key"
  casperRpcUrl := "https://node.testnet.casper.network/rpc"
  agentPublicKey := none

/-- A count that is read. -/
def counted (n : ℕ) : ConsumerReply :=
  ⟨.stateGetItem watching.casperRpcUrl "hash-deposit" "key", .ok (countBody n)⟩

/-- The time that is read. -/
def clockRead : ConsumerReply :=
  ⟨.dateNow, (0 : ℕ)⟩

/-- A deposit that is passed on, and taken. -/
def passedOn (n : ℕ) : ConsumerReply :=
  ⟨.onDeposit ⟨deposits n, "", "0", "(see contract)", "parking", "auto", 0, 0⟩, .ok ()⟩

/-- The record of two polls, of which the second one finds more deposits. -/
def twoPolls (first last : ℕ) : List ConsumerReply :=
  [counted first, clockRead, counted last, clockRead, passedOn last]

/-- One new deposit between the polls. -/
theorem deposits_delivered_once_fifth :
    ∃ ids refused : List ℕ, (twoPolls 4 5).filterMap idDelivered = ids.map deposits ∧
      (twoPolls 4 5).filterMap idRefused = refused.map deposits ∧
      (DeliveredOnce 4 5 ids ↔ Steady [4, 5] refused) := by
  have hrun : Program.Runs recording []
      ((startStakeholderDepositConsumer watching 2).toProgram (deposits 0))
      (twoPolls 4 5) (.ok (), deposits 5) :=
    .answered (counted 4) <| .answered clockRead <| .answered (counted 5) <|
      .answered clockRead <| .answered (passedOn 5) <| .done _ _
  have hcounts : (twoPolls 4 5).filterMap countSeen = [4, 5].map deposits := rfl
  exact deposits_delivered_once_iff hrun hcounts (by decide)

/-- Three new deposits between the polls: the consumer passes on the last one of them only. -/
theorem burst_not_delivered :
    ¬ ∀ (cfg : ConsumerConfig) (n : ℕ) (lastSeenId : Number) (replies : List ConsumerReply)
        (res : Except Error Unit × Number),
      Program.Runs recording [] ((startStakeholderDepositConsumer cfg n).toProgram lastSeenId)
        replies res →
      ∀ counts : List ℕ, replies.filterMap countSeen = counts.map deposits →
        counts.Pairwise (· ≤ ·) →
        ∃ ids : List ℕ, replies.filterMap idDelivered = ids.map deposits ∧
          DeliveredOnce (counts.headD 0) (counts.getLastD 0) ids := by
  intro h
  have hrun : Program.Runs recording []
      ((startStakeholderDepositConsumer watching 2).toProgram (deposits 0))
      (twoPolls 4 7) (.ok (), deposits 7) :=
    .answered (counted 4) <| .answered clockRead <| .answered (counted 7) <|
      .answered clockRead <| .answered (passedOn 7) <| .done _ _
  have hcounts : (twoPolls 4 7).filterMap countSeen = [4, 7].map deposits := rfl
  obtain ⟨ids, hids, honce, -⟩ := h _ _ _ _ _ hrun [4, 7] hcounts (by decide)
  obtain rfl : [7] = ids := deposits_injective.list_map hids
  exact absurd (honce 5 (by decide) (by decide)) (by decide)

end ArwaAgent.CsprCloud
