import ArwaAgent.Contracts.VaultSpec
import Mathlib.Data.Set.Insert

/-!
# Who may change an AgentVault

The owner registers and unregisters agents, and the other entry points ask for a
registered caller.  `exec_access` says so for one call, with what the call does to the
registrations; over a run the registered addresses are then the owner and the first
agent, as the owner's calls have changed them in order (`registered`), and an address
that the owner has unregistered stays out until the owner registers it again.  The owner
and the first agent can be unregistered like any other address.
-/

namespace ArwaAgent

namespace AgentVault

/-- The entry points that ask for a registered caller. -/
def Call.operates : Call → Bool
  | .registerAgent _ | .unregisterAgent _ => false
  | _ => true

/-- The caller has the role that the call asks for. -/
def Permits (self : AgentVault) (q : Request Call) : Prop :=
  (q.call.operates = false ∧ q.env.caller = self.owner) ∨
    (q.call.operates = true ∧ self.isAgent q.env.caller = true)

/-- The registered addresses after a call that may be reverted. -/
def registration (owner : Address) (agents : Set Address) (q : Request Call) : Set Address :=
  match q.call with
  | .registerAgent a => if q.env.caller = owner then insert a agents else agents
  | .unregisterAgent a => if q.env.caller = owner then agents \ {a} else agents
  | _ => agents

/-- The owner and the first agent, as the owner's calls have changed them in order. -/
def registered (owner agent : Address) (qs : List (Request Call)) : Set Address :=
  qs.foldl (registration owner) {owner, agent}

/-! ### One call -/

section

variable {self : AgentVault} {q : Request Call} {c : Commit AgentVault VaultEvent}

lemma setOf_update_true (agents : Address → Bool) (a : Address) :
    {b | Function.update agents a true b = true} = insert a {b | agents b = true} := by
  ext b
  by_cases hb : b = a <;> simp [Function.update_apply, hb]

lemma setOf_update_false (agents : Address → Bool) (a : Address) :
    {b | Function.update agents a false b = true} = {b | agents b = true} \ {a} := by
  ext b
  by_cases hb : b = a <;> simp [Function.update_apply, hb]

/-- An accepted call was permitted; it keeps the owner, and changes the registrations if it
is one of the owner's. -/
lemma exec_access (hc : self.exec q.env q.call = .ok c) :
    self.Permits q ∧ c.contract.owner = self.owner ∧
      {a | c.contract.isAgent a = true} =
        registration self.owner {a | self.isAgent a = true} q := by
  obtain ⟨env, call⟩ := q
  cases call with
  | registerAgent agent =>
    obtain ⟨howner, rfl⟩ := registerAgent_eq_ok_iff.1 hc
    refine ⟨Or.inl ⟨rfl, howner⟩, rfl, ?_⟩
    exact (setOf_update_true self.agents agent).trans (if_pos howner).symm
  | unregisterAgent agent =>
    obtain ⟨howner, rfl⟩ := unregisterAgent_eq_ok_iff.1 hc
    refine ⟨Or.inl ⟨rfl, howner⟩, rfl, ?_⟩
    exact (setOf_update_false self.agents agent).trans (if_pos howner).symm
  | executeStrategy args =>
    obtain ⟨hagent, -, slots, head, -, rfl⟩ := contract_of_executeStrategy hc
    exact ⟨Or.inr ⟨rfl, hagent⟩, rfl, rfl⟩
  | depositForStrategy amount source =>
    obtain ⟨hagent, -, -, custodied, total, -, -, rfl⟩ := depositForStrategy_eq_ok_iff.1 hc
    exact ⟨Or.inr ⟨rfl, hagent⟩, rfl, rfl⟩
  | recordStrategyExecution kind target amount openedTx =>
    obtain ⟨hadm, rfl⟩ := recordStrategyExecution_eq_ok_iff.1 hc
    exact ⟨Or.inr ⟨rfl, hadm.1⟩, rfl, rfl⟩
  | recordYieldRealised positionId yieldAmount sourceTx =>
    obtain ⟨positions, total, hcontract⟩ := contract_of_recordYieldRealised hc
    have hagent : self.agents env.caller = true := (require_bind_eq_ok_iff.1 hc).1
    rw [hcontract]
    exact ⟨Or.inr ⟨rfl, hagent⟩, rfl, rfl⟩
  | withdrawForStrategy amount reason =>
    obtain ⟨hadm, rfl⟩ := withdrawForStrategy_eq_ok_iff.1 hc
    exact ⟨Or.inr ⟨rfl, hadm.1⟩, rfl, rfl⟩

/-- Registering and unregistering ask for nothing but the owner, so a call of theirs that
reverts was not made by the owner, and no other call changes the registrations. -/
lemma registration_of_error {e : Revert} (he : self.exec q.env q.call = .error e)
    (agents : Set Address) : registration self.owner agents q = agents := by
  obtain ⟨env, call⟩ := q
  cases call with
  | registerAgent agent =>
    refine if_neg fun howner => ?_
    have hok := he.symm.trans (registerAgent_eq_ok_iff.2 ⟨howner, rfl⟩)
    cases hok
  | unregisterAgent agent =>
    refine if_neg fun howner => ?_
    have hok := he.symm.trans (unregisterAgent_eq_ok_iff.2 ⟨howner, rfl⟩)
    cases hok
  | _ => rfl

lemma step_of_not_permits {w : VaultChain} (h : ¬ w.contract.Permits q) :
    Chain.step exec w q = w := by
  rcases @Chain.step_cases _ _ _ exec w q with ⟨c, hc, -⟩ | ⟨-, -, hstep⟩
  · exact absurd (exec_access hc).1 h
  · exact hstep

/-- What a call does to the owner and to the registrations, accepted or not. -/
lemma step_access (w : VaultChain) (q : Request Call) :
    (Chain.step exec w q).contract.owner = w.contract.owner ∧
      {a | (Chain.step exec w q).contract.isAgent a = true} =
        registration w.contract.owner {a | w.contract.isAgent a = true} q := by
  rcases @Chain.step_cases _ _ _ exec w q with ⟨c, hc, hstep⟩ | ⟨e, he, hstep⟩
  · rw [hstep]
    exact (exec_access hc).2
  · rw [hstep, registration_of_error he]
    exact ⟨rfl, rfl⟩

end

/-! ### Runs -/

section

variable {owner agent a : Address}

lemma not_mem_registration {agents : Set Address} {q : Request Call} (ha : a ∉ agents)
    (hq : q.call = .registerAgent a → q.env.caller ≠ owner) : a ∉ registration owner agents q := by
  obtain ⟨env, call⟩ := q
  cases call with
  | registerAgent b =>
    intro hmem
    simp only [registration] at hmem
    split at hmem
    · next howner =>
      rcases Set.mem_insert_iff.1 hmem with rfl | hmem
      · exact hq rfl howner
      · exact ha hmem
    · exact ha hmem
  | unregisterAgent b =>
    intro hmem
    simp only [registration] at hmem
    split at hmem
    · exact ha hmem.1
    · exact ha hmem
  | _ => exact ha

lemma not_mem_registered {before later : List (Request Call)} {env : Env}
    (henv : env.caller = owner)
    (hlater : ∀ q ∈ later, q.call = .registerAgent a → q.env.caller ≠ owner) :
    a ∉ registered owner agent (before ++ ⟨env, .unregisterAgent a⟩ :: later) := by
  rw [registered, List.foldl_append, List.foldl_cons]
  have hout : a ∉ registration owner (before.foldl (registration owner) {owner, agent})
      ⟨env, .unregisterAgent a⟩ := by
    simp [registration, henv]
  generalize registration owner (before.foldl (registration owner) {owner, agent})
    ⟨env, .unregisterAgent a⟩ = agents at hout
  induction later generalizing agents with
  | nil => exact hout
  | cons q later ih =>
    rw [List.foldl_cons]
    refine ih (fun q' hq' => hlater q' (List.mem_cons_of_mem _ hq')) _ ?_
    exact not_mem_registration hout (hlater q List.mem_cons_self)

end

/-- A vault after the calls `qs`, some of which may have been reverted. -/
def vaultAfter (owner agent : Address) (maxLogHistory : UInt32) (minStrategyAmount : U256)
    (qs : List (Request Call)) : VaultChain :=
  Chain.after exec (.init owner agent maxLogHistory minStrategyAmount) qs

section

variable (owner agent : Address) (maxLogHistory : UInt32) (minStrategyAmount : U256)

lemma vaultAfter_append (qs : List (Request Call)) (q : Request Call) :
    vaultAfter owner agent maxLogHistory minStrategyAmount (qs ++ [q]) =
      Chain.step exec (vaultAfter owner agent maxLogHistory minStrategyAmount qs) q := by
  simp [vaultAfter, Chain.after]

/-- The owner stays, and the registrations are read off the calls. -/
lemma access_after (qs : List (Request Call)) :
    (vaultAfter owner agent maxLogHistory minStrategyAmount qs).contract.owner = owner ∧
      {a | (vaultAfter owner agent maxLogHistory minStrategyAmount qs).contract.isAgent a = true} =
        registered owner agent qs := by
  induction qs using List.reverseRecOn with
  | nil =>
    refine ⟨rfl, ?_⟩
    ext a
    by_cases ha : a = agent <;> by_cases ho : a = owner <;>
      simp [vaultAfter, Chain.after, init, isAgent, registered, Function.update_apply, ha, ho]
  | append_singleton qs q ih =>
    obtain ⟨howner, hagents⟩ := ih
    have hstep := step_access (vaultAfter owner agent maxLogHistory minStrategyAmount qs) q
    rw [howner, hagents] at hstep
    rw [vaultAfter_append, registered, List.foldl_append]
    exact hstep

end

end AgentVault

open AgentVault

/-- In every run of calls by anyone: a call that changes anything is a registration or an
unregistration by the owner, or a call of another entry point by a registered address; the
registered addresses are the owner and the first agent as the owner's calls have changed
them; and an address that the owner has unregistered changes nothing through the other entry
points until the owner registers it again. -/
theorem vault_access (owner agent : Address) (maxLogHistory : UInt32) (minStrategyAmount : U256)
    (qs : List (Request Call)) :
    let w := vaultAfter owner agent maxLogHistory minStrategyAmount qs
    (∀ q, Chain.step exec w q ≠ w →
      (q.call.operates = false ∧ q.env.caller = owner) ∨
        (q.call.operates = true ∧ w.contract.isAgent q.env.caller = true)) ∧
    {a | w.contract.isAgent a = true} = registered owner agent qs ∧
    ∀ before later env a, qs = before ++ ⟨env, .unregisterAgent a⟩ :: later →
      env.caller = owner →
      (∀ q ∈ later, q.call = .registerAgent a → q.env.caller ≠ owner) →
      ∀ q, q.env.caller = a → q.call.operates = true → Chain.step exec w q = w := by
  obtain ⟨howner, hagents⟩ := access_after owner agent maxLogHistory minStrategyAmount qs
  refine ⟨fun q hchange => ?_, hagents, ?_⟩
  · have hpermits := not_imp_comm.1 step_of_not_permits hchange
    rw [Permits, howner] at hpermits
    exact hpermits
  · rintro before later env a rfl henv hlater q rfl hoperates
    refine step_of_not_permits ?_
    rintro (⟨hadmin, -⟩ | ⟨-, hagent⟩)
    · rw [hoperates] at hadmin
      cases hadmin
    · have hmem : q.env.caller ∈ registered owner agent
          (before ++ ⟨env, .unregisterAgent q.env.caller⟩ :: later) := by
        rw [← hagents]
        exact hagent
      exact not_mem_registered henv hlater hmem

/-- The owner unregisters the first agent. -/
def agentUnregistered : List (Request Call) :=
  [{ env := { caller := .account 1, blockTime := 7, purse := 0 }
     call := .unregisterAgent (.account 2) }]

/-- The theorem at work: a deposit that the agent records afterwards changes nothing. -/
theorem vault_access_agentUnregistered :
    Chain.step exec (vaultAfter (.account 1) (.account 2) 50 1 agentUnregistered)
        { env := { caller := .account 2, blockTime := 8, purse := 0 }
          call := .depositForStrategy 100 "parking" } =
      vaultAfter (.account 1) (.account 2) 50 1 agentUnregistered :=
  (vault_access (.account 1) (.account 2) 50 1 agentUnregistered).2.2 [] [] _ (.account 2) rfl rfl
    (fun _ hq => nomatch hq) _ rfl rfl

end ArwaAgent
