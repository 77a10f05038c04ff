import ArwaAgent.Contracts.RevenueLog

/-!
# Who may do what with a RevenueEmitter

Owner, emitter and pause are read off the history of accepted calls: the last handover,
the last appointment, the last pause.  Every accepted call was authorised by what they
were when it was made, and a nomination that is pending has been made by the present owner
after the last handover (`Governed`).  The address zero stands for no nomination; what it
would do as a caller makes no difference.
-/

namespace ArwaAgent

namespace RevenueEmitter

/-- The calls of the two-step transfer of the ownership. -/
def Call.handsOver : Call → Bool
  | .transferOwnership _ | .acceptOwnership => true
  | _ => false

/-- The calls that only the owner may make. -/
def Call.administers : Call → Bool
  | .transferOwnership _ | .setEmitter _ | .setPaused _ => true
  | _ => false

section

variable (owner emitter : Address) (h : List EmitterInvocation)

/-- Who has accepted the ownership last. -/
def ownerOf : Address :=
  h.foldl (fun o i => match i.call with | .acceptOwnership => i.env.caller | _ => o) owner

/-- Who has been appointed emitter last. -/
def emitterOf : Address :=
  h.foldl (fun o i => match i.call with | .setEmitter newEmitter => newEmitter | _ => o) emitter

/-- Whether the contract has been paused last. -/
def pausedOf : Bool :=
  h.foldl (fun o i => match i.call with | .setPaused paused => paused | _ => o) false

/-- The last call of the transfer was a nomination of `p` by `o`. -/
def Nominated (o p : Address) : Prop :=
  ∃ before i after, h = before ++ i :: after ∧ i.call = .transferOwnership p ∧
    i.env.caller = o ∧ ∀ j ∈ after, j.call.handsOver = false

/-- The caller of `i` had the right to make this call after the calls `before`. -/
def Authorised (before : List EmitterInvocation) (i : EmitterInvocation) : Prop :=
  (i.call.administers = true → i.env.caller = ownerOf owner before) ∧
    ∀ e, i.emission = some e → pausedOf before = false ∧
      (i.env.caller = ownerOf owner before ∨ i.env.caller = emitterOf emitter before)

/-- What the storage says about the history, and the history about its callers. -/
structure Governed (contract : RevenueEmitter) : Prop where
  owner_eq : contract.owner = ownerOf owner h
  emitter_eq : contract.emitter = emitterOf emitter h
  paused_eq : contract.paused = pausedOf h
  pending : ∀ p, contract.pendingOwner = some p → p ≠ zeroAddress → Nominated h contract.owner p
  authorised : ∀ before i after, h = before ++ i :: after → Authorised owner emitter before i

end

section

variable {owner emitter : Address} {h : List EmitterInvocation} {self : RevenueEmitter}
  {o p : Address} {i : EmitterInvocation}

@[simp] lemma ownerOf_append : ownerOf owner (h ++ [i]) =
    match i.call with | .acceptOwnership => i.env.caller | _ => ownerOf owner h := by
  simp [ownerOf]

@[simp] lemma emitterOf_append : emitterOf emitter (h ++ [i]) =
    match i.call with | .setEmitter newEmitter => newEmitter | _ => emitterOf emitter h := by
  simp [emitterOf]

@[simp] lemma pausedOf_append : pausedOf (h ++ [i]) =
    match i.call with | .setPaused paused => paused | _ => pausedOf h := by
  simp [pausedOf]

lemma emitter_of_emission {e : RevenueEvent} (he : i.emission = some e) :
    e.emitter = i.env.caller := by
  rw [EmitterInvocation.emission] at he
  split at he
  · cases he
    rfl
  · cases he

lemma Nominated.append (hn : Nominated h o p) (hi : i.call.handsOver = false) :
    Nominated (h ++ [i]) o p := by
  obtain ⟨before, k, after, rfl, hcall, hcaller, hafter⟩ := hn
  refine ⟨before, k, after ++ [i], by simp, hcall, hcaller, ?_⟩
  intro j hj
  rcases List.mem_append.1 hj with hj | hj
  · exact hafter j hj
  · rw [List.mem_singleton.1 hj]
    exact hi

lemma authorised_append
    (hall : ∀ before i after, h = before ++ i :: after → Authorised owner emitter before i)
    (hi : Authorised owner emitter h i) (before : List EmitterInvocation) (j : EmitterInvocation)
    (after : List EmitterInvocation) (hsplit : h ++ [i] = before ++ j :: after) :
    Authorised owner emitter before j := by
  rcases snoc_eq_append_cons_iff.1 hsplit with ⟨rfl, rfl, -⟩ | ⟨rest, -, hrest⟩
  · exact hi
  · exact hall before j rest hrest

lemma governed_init (owner emitter : Address) (maxHistory : UInt32) :
    Governed owner emitter [] (.init owner emitter maxHistory) where
  owner_eq := rfl
  emitter_eq := rfl
  paused_eq := rfl
  pending := by
    intro p hp
    cases hp
  authorised := by
    intro before i after hsplit
    simp at hsplit

/-- Every accepted call keeps what the storage and the history say about each other. -/
lemma governed_step {cap : ℕ} {q : Request Call} {c : Commit RevenueEmitter Event}
    (hP : Published cap self (emissionsOf h)) (hI : Governed owner emitter h self)
    (hc : self.exec q.env q.call = .ok c) :
    Governed owner emitter (h ++ [{ q with event := c.event }]) c.contract := by
  obtain ⟨env, call⟩ := q
  have hsilent : ∀ {e : RevenueEvent} {r : Prop}, none = some e → r := fun he => nomatch he
  cases call with
  | transferOwnership newOwner =>
    obtain ⟨hcaller, rfl⟩ := transferOwnership_eq_ok_iff.1 hc
    refine ⟨by simpa using hI.owner_eq, by simpa using hI.emitter_eq, by simpa using hI.paused_eq,
      ?_, authorised_append hI.authorised ⟨fun _ => hcaller.trans hI.owner_eq, fun _ => hsilent⟩⟩
    -- it replaces the nomination that may have been pending
    intro p hp _
    cases hp
    exact ⟨h, _, [], rfl, rfl, hcaller, by simp⟩
  | acceptOwnership =>
    obtain ⟨-, -, rfl⟩ := acceptOwnership_eq_ok_iff.1 hc
    refine ⟨by simp, by simpa using hI.emitter_eq, by simpa using hI.paused_eq,
      ?_, authorised_append hI.authorised ⟨(nomatch ·), fun _ => hsilent⟩⟩
    -- the nomination has been used up
    intro p hp hzero
    cases hp
    exact absurd rfl hzero
  | setEmitter newEmitter =>
    obtain ⟨hcaller, rfl⟩ := setEmitter_eq_ok_iff.1 hc
    refine ⟨by simpa using hI.owner_eq, by simp, by simpa using hI.paused_eq,
      ?_, authorised_append hI.authorised ⟨fun _ => hcaller.trans hI.owner_eq, fun _ => hsilent⟩⟩
    exact fun p hp hzero => (hI.pending p hp hzero).append rfl
  | setPaused paused =>
    obtain ⟨hcaller, rfl⟩ := setPaused_eq_ok_iff.1 hc
    refine ⟨by simpa using hI.owner_eq, by simpa using hI.emitter_eq, by simp,
      ?_, authorised_append hI.authorised ⟨fun _ => hcaller.trans hI.owner_eq, fun _ => hsilent⟩⟩
    exact fun p hp hzero => (hI.pending p hp hzero).append rfl
  | emitRevenue amount asset source reference =>
    obtain ⟨⟨hpaused, hcaller, -⟩, events, head, total, -, -, rfl⟩ := emitRevenue_spec hP.holds hc
    refine ⟨?_, ?_, ?_, ?_, authorised_append hI.authorised ⟨(nomatch ·), fun _ _ => ⟨?_, ?_⟩⟩⟩
    · rw [ownerOf_append]
      exact hI.owner_eq
    · rw [emitterOf_append]
      exact hI.emitter_eq
    · rw [pausedOf_append]
      exact hI.paused_eq
    · exact fun p hp hzero => (hI.pending p hp hzero).append rfl
    · rw [← hI.paused_eq]
      exact hpaused
    · rw [← hI.owner_eq, ← hI.emitter_eq]
      exact hcaller.symm

/-- A step that changes the owner is a handover to its caller, who had been nominated. -/
lemma step_owner {cap : ℕ} {w : EmitterChain}
    (hP : Published cap w.contract (emissionsOf w.history)) (hI : Governed owner emitter w.history w.contract)
    {q : Request Call}
    (hne : (Chain.step exec w q).contract.owner ≠ w.contract.owner) :
    q.call = .acceptOwnership ∧ (Chain.step exec w q).contract.owner = q.env.caller ∧
      Nominated w.history w.contract.owner q.env.caller := by
  rcases @Chain.step_cases _ _ _ exec w q with ⟨c, hc, hstep⟩ | ⟨-, -, hstep⟩
  · rw [hstep] at hne ⊢
    obtain ⟨env, call⟩ := q
    cases call with
    | transferOwnership newOwner =>
      obtain ⟨-, rfl⟩ := transferOwnership_eq_ok_iff.1 hc
      exact absurd rfl hne
    | acceptOwnership =>
      obtain ⟨hpending, hcaller, rfl⟩ := acceptOwnership_eq_ok_iff.1 hc
      refine ⟨rfl, rfl, ?_⟩
      rw [← hcaller] at hpending
      -- the zero address stands for no nomination, so there is one
      cases hp : w.contract.pendingOwner with
      | none =>
        rw [hp] at hcaller
        exact absurd hcaller hpending
      | some p =>
        rw [hp] at hcaller
        obtain rfl : env.caller = p := hcaller
        exact hI.pending _ hp hpending
    | setEmitter newEmitter =>
      obtain ⟨-, rfl⟩ := setEmitter_eq_ok_iff.1 hc
      exact absurd rfl hne
    | setPaused paused =>
      obtain ⟨-, rfl⟩ := setPaused_eq_ok_iff.1 hc
      exact absurd rfl hne
    | emitRevenue amount asset source reference =>
      obtain ⟨-, events, head, total, -, -, rfl⟩ := emitRevenue_spec hP.holds hc
      exact absurd rfl hne
  · rw [hstep] at hne
    exact absurd rfl hne

end

section Runs

variable {owner emitter : Address} {maxHistory : UInt32} {w : EmitterChain}

theorem governed_of_reachable (hw : (emitterSystem owner emitter maxHistory).Reachable w) :
    Governed owner emitter w.history w.contract := by
  have hboth := Chain.invariant
    (I := fun contract h => Published (max maxHistory.toNat 1) contract (emissionsOf h) ∧
      Governed owner emitter h contract)
    ⟨published_init owner emitter maxHistory, governed_init owner emitter maxHistory⟩ ?_ hw
  · exact hboth.2
  · intro w q c hI hc
    exact ⟨published_step hI.1 hc, governed_step hI.1 hI.2 hc⟩

lemma exists_of_mem_emissionsOf {h : List EmitterInvocation} {e : RevenueEvent}
    (he : e ∈ emissionsOf h) : ∃ before i after, h = before ++ i :: after ∧ i.emission = some e := by
  obtain ⟨i, hi, hemission⟩ := List.mem_filterMap.1 he
  obtain ⟨before, after, rfl⟩ := List.append_of_mem hi
  exact ⟨before, i, after, rfl, hemission⟩

/-- In every run of calls by anyone: the owner changes only when the address that was nominated
last accepts, and it was nominated by the present owner after the last handover; the emitter is
the one that an owner has appointed last, or the first one; and a stored event was pushed, in
the name of its caller, by the owner or the emitter of the time while the contract was not
paused. -/
theorem revenue_authority (hw : (emitterSystem owner emitter maxHistory).Reachable w) :
    (∀ q, (Chain.step exec w q).contract.owner ≠ w.contract.owner →
      q.call = .acceptOwnership ∧ (Chain.step exec w q).contract.owner = q.env.caller ∧
      ∃ before i after, w.history = before ++ i :: after ∧
        i.call = .transferOwnership q.env.caller ∧ i.env.caller = w.contract.owner ∧
        ∀ j ∈ after, j.call.handsOver = false) ∧
    (w.contract.owner = ownerOf owner w.history ∧
      w.contract.emitter = emitterOf emitter w.history ∧
      w.contract.paused = pausedOf w.history ∧
      ∀ before i after, w.history = before ++ i :: after → i.call.administers = true →
        i.env.caller = ownerOf owner before) ∧
    ∀ e ∈ w.contract.events, ∃ before i after, w.history = before ++ i :: after ∧
      i.emission = some e ∧ e.emitter = i.env.caller ∧ pausedOf before = false ∧
      (i.env.caller = ownerOf owner before ∨ i.env.caller = emitterOf emitter before) := by
  have hP := published_of_reachable hw
  have hI := governed_of_reachable hw
  refine ⟨fun q hne => step_owner hP hI hne, ⟨hI.owner_eq, hI.emitter_eq, hI.paused_eq, ?_⟩, ?_⟩
  · exact fun before i after hsplit => (hI.authorised before i after hsplit).1
  · intro e he
    obtain ⟨j, -, hj⟩ := hP.holds.mem_slots_iff.1 he
    obtain ⟨before, i, after, hsplit, hemission⟩ :=
      exists_of_mem_emissionsOf (List.mem_of_getElem? hj)
    obtain ⟨hpaused, hcaller⟩ := (hI.authorised before i after hsplit).2 e hemission
    exact ⟨before, i, after, hsplit, hemission, emitter_of_emission hemission, hpaused, hcaller⟩

end Runs

/-- Account 1 nominates account 3. -/
def nomination : List (Request Call) :=
  [{ env := { caller := .account 1, blockTime := 7, purse := 0 }
     call := .transferOwnership (.account 3) }]

/-- The theorem at work: account 3 accepts, and account 1 had nominated it. -/
theorem revenue_authority_nomination :
    Nominated (Chain.after exec (.init (.account 1) (.account 2) 10) nomination).history
      (.account 1) (.account 3) :=
  ((revenue_authority (Chain.reachable_after _ nomination)).1
    { env := { caller := .account 3, blockTime := 8, purse := 0 }, call := .acceptOwnership }
    (by decide)).2.2

end RevenueEmitter

end ArwaAgent
