import ArwaAgent.Agent.FundMirror
import ArwaAgent.Contracts.DepositRefinement
import ArwaAgent.Js.Order

/-!
# The deposits of the simulator

The simulator draws an amount from the range of a stakeholder, in doubles, turns it into motes
and submits a deposit of so much, with the texts of the stakeholder.  However the draw ends, the
motes lie in the range and the texts are those of a stakeholder, so the deposit passes every check
of the contract: it can only be refused while the contract is paused.
-/

namespace ArwaAgent

open Js Effects Effects.Code

namespace StakeholderProfile

/-- The texts pass the checks of the contract and are not cut; the range is not empty, and a double
counts its motes one by one. -/
structure Suitable (sh : StakeholderProfile) : Prop where
  label : sh.label.utf8ByteSize ≤ 64
  sourceKind : sh.sourceKind.utf8ByteSize ≤ 32
  label_slice : String.ofList (slice16 64 sh.label.toList) = sh.label
  sourceKind_slice : String.ofList (slice16 32 sh.sourceKind.toList) = sh.sourceKind
  pos : 0 < sh.amountRange.1
  range : sh.amountRange.1 ≤ sh.amountRange.2
  motes : 10 ^ 9 * sh.amountRange.2 < 2 ^ 53

/-- A deposit for the stakeholder, of an amount in its range. -/
structure Deposits (sh : StakeholderProfile) (args : DepositArgs) : Prop where
  label : args.sourceLabel = sh.label
  sourceKind : args.sourceKind = sh.sourceKind
  strategyHint : args.strategyHint = "auto"
  least : 10 ^ 9 * sh.amountRange.1 ≤ args.amount
  most : args.amount ≤ 10 ^ 9 * sh.amountRange.2

end StakeholderProfile

lemma suitable_of_mem {sh : StakeholderProfile} (h : sh ∈ stakeholders) : sh.Suitable := by
  simp only [stakeholders, List.mem_cons, List.not_mem_nil, or_false] at h
  rcases h with rfl | rfl | rfl
  all_goals
    exact ⟨by decide, by decide, by decide, by decide, by decide, by decide, by decide⟩

lemma pickStakeholder_mem (nextRoundRobin : ℕ) : pickStakeholder nextRoundRobin ∈ stakeholders := by
  have hlt : nextRoundRobin % stakeholders.length < stakeholders.length :=
    Nat.mod_lt _ (by simp [stakeholders])
  rw [pickStakeholder, List.getElem?_eq_getElem hlt, Option.getD_some]
  exact List.getElem_mem hlt

/-! ### Drawing an amount -/

section

variable {sh : StakeholderProfile} {random : ℚ}

/-- What is drawn lies in the range, whatever the roundings are. -/
lemma exists_randomIn {lo hi : ℤ} (hlo : 0 ≤ lo) (hle : lo ≤ hi) (hhi : hi < 2 ^ 53)
    (h₀ : 0 ≤ random) (h₁ : random ≤ 1) :
    ∃ x, randomIn (lo, hi) random = .finite x ∧ (lo : ℚ) ≤ x ∧ x ≤ hi := by
  have hwidth : (Number.finite hi).sub (.finite lo) = .finite (hi - lo : ℤ) :=
    Number.finite_sub_finite (by push_cast; rfl) (by rw [abs_lt]; omega)
  have hwidth₀ : (0 : ℚ) ≤ (hi - lo : ℤ) := by exact_mod_cast sub_nonneg.2 hle
  -- the share of the width
  obtain ⟨y, hy, hy₀, hy₁⟩ := @Number.round_between (random * (hi - lo : ℤ)) 0 (hi - lo) le_rfl
    (by omega) (by simpa using mul_nonneg h₀ hwidth₀) (mul_le_of_le_one_left hwidth₀ h₁)
  rw [Int.cast_zero] at hy₀
  rw [Int.cast_sub] at hy₁
  -- and the lower end added to it
  obtain ⟨x, hx, hx₀, hx₁⟩ := @Number.round_between (lo - -y) lo hi hlo hhi (by linarith)
    (by linarith)
  refine ⟨x, ?_, hx₀, hx₁⟩
  rw [randomIn, hwidth, Number.mul, hy, Number.add, Number.neg, Number.sub, hx]

/-- The motes of the amount that is drawn. -/
lemma exists_amountMotes (hsh : sh.Suitable) (h₀ : 0 ≤ random) (h₁ : random ≤ 1) :
    ∃ m, amountMotes (randomIn sh.amountRange random) = .ok m ∧
      10 ^ 9 * sh.amountRange.1 ≤ m ∧ m ≤ 10 ^ 9 * sh.amountRange.2 := by
  obtain ⟨x, hx, hlo, hhi⟩ := exists_randomIn hsh.pos.le hsh.range
    (by have := hsh.motes; have := hsh.pos; have := hsh.range; omega) h₀ h₁
  obtain ⟨y, hy, hy₀, hy₁⟩ := @Number.round_between (x * 10 ^ 9) (10 ^ 9 * sh.amountRange.1)
    (10 ^ 9 * sh.amountRange.2) (by have := hsh.pos; omega) hsh.motes
    (by push_cast; linarith) (by push_cast; linarith)
  refine ⟨⌊y⌋, ?_, Int.le_floor.2 hy₀, Int.floor_le_iff.2 (by linarith)⟩
  rw [hx, amountMotes, Number.mul, hy, Number.floor, Value.toBigInt_intCast]

end

/-! ### What is submitted -/

/-- The deposits that are submitted are those of the stakeholders; a stakeholder is picked among
them. -/
def depositing : Monitor FundOp FundAns Unit where
  allows := fun _ op => match op with
    | .putDeposit args => ∃ sh ∈ stakeholders, sh.Deposits args
    | _ => True
  expects := fun _ op => match op with
    | .pickStakeholder _ => fun sh => sh ∈ stakeholders
    | _ => fun _ => True
  next := fun _ _ _ => ()

section

variable {cfg : Config} {d : FundWorld.Deployment} {p : ℕ}

lemma triggerDeposit_deposits :
    Meets depositing () () (triggerDeposit p) fun _ _ r => ∃ a, r = .ok a := by
  refine meets_ask_bind.2 ⟨trivial, fun sh (hmem : sh ∈ stakeholders) => ?_⟩
  have hsh := suitable_of_mem hmem
  refine meets_ask_bind.2 ⟨trivial, fun random _ => ?_⟩
  obtain ⟨m, hm, hleast, hmost⟩ := exists_amountMotes hsh random.2.1 random.2.2.le
  refine meets_result_bind.2 ?_
  rw [hm]
  refine meets_ask_bind.2 ⟨trivial, fun nonce _ => ?_⟩
  refine meets_tryCatch.2 (meets_ask_bind.2 ⟨⟨sh, hmem, hsh.label_slice, hsh.sourceKind_slice, rfl,
    hleast, hmost⟩, fun r _ => ?_⟩)
  -- what is thrown from here on is reported
  cases r with
  | error e => exact ⟨_, rfl⟩
  | ok data =>
    refine Meets.result_bind (fun error _ => ?_) fun e => ⟨_, rfl⟩
    show Meets depositing () () (if error.truthy then _ else _) _
    split_ifs with htruthy
    · exact ⟨_, rfl⟩
    · refine Meets.result_bind (fun answer _ => ?_) fun e => ⟨_, rfl⟩
      refine meets_bind.2 (meets_tryCatch.2 (meets_ask.2 ⟨trivial, fun r _ => ?_⟩))
      cases r with
      | ok _ => exact ⟨_, rfl⟩
      | error e => exact ⟨_, rfl⟩

lemma demoBootstrap_deposits : Stays depositing () (demoBootstrap p) := by
  have hask : ∀ {α : Type} {op : FundOp} {read : FundAns op → Except Error α},
      depositing.allows () op → Stays depositing () (ask op read : Fund α) :=
    fun h => Stays.ask h fun _ => rfl
  refine Stays.bind (hask trivial) fun _ => Stays.bind (hask trivial) fun _ => ?_
  refine Stays.bind (hask trivial) fun _ => Stays.bind (hask trivial) fun _ => ?_
  exact Stays.bind (hask trivial) fun _ => Stays.bind (hask trivial) fun _ => Stays.pure _

/-- An executor submits no deposit of a stakeholder. -/
lemma fundOp_deposits (op : Op) :
    Program.Meets depositing () (fundOp p op) fun _ _ => True := by
  cases op <;> exact ⟨trivial, fun _ _ => trivial⟩

lemma code_deposits (j : FundJob) : (j.code cfg).Meets depositing () fun _ _ => True := by
  cases j with
  | execute p proposal =>
    -- an executor may make any of its calls
    have hexecutor : Program.Meets ⟨fun _ _ => True, fun _ _ _ => True, fun s _ _ => s⟩ ()
        ((runExecutor cfg proposal).toProgram ()) fun _ _ => True :=
      Program.meets_of_invariant (fun _ _ h => h) (fun _ _ _ h => h) trivial
    refine Program.meets_bind.2 (Program.Meets.mono (Program.meets_handle (R := fun _ _ => True)
      (fun s s' op _ _ => (fundOp_deposits op).mono fun _ _ _ => ⟨trivial, trivial⟩)
      hexecutor trivial) fun _ _ _ => trivial)
  | simulate p => exact Program.meets_bind.2 (triggerDeposit_deposits.mono fun _ _ _ _ => trivial)
  | bootstrap p =>
    exact Program.meets_bind.2 ((demoBootstrap_deposits ()).mono fun _ _ _ _ => trivial)
  | getFundState p => exact ⟨trivial, fun _ _ => trivial⟩

end

/-- What the contract is asked to do by a deposit of a stakeholder, it does unless it is paused. -/
lemma StakeholderProfile.Deposits.exists_exec {sh : StakeholderProfile} {args : DepositArgs}
    (h : sh.Deposits args) (hsh : sh.Suitable) (hnonce : args.nonce < 2 ^ 64)
    {self : StakeholderDeposit} {log : List Deposit} (hrec : self.Records log)
    (hpaused : self.paused = false) (env : Env) :
    ∃ call r, (FundOp.putDeposit args).depositCall = some call ∧ self.exec env call = .ok r := by
  have hpos : 0 < args.amount := by
    have := hsh.pos
    have := h.least
    omega
  have hlt : args.amount < 2 ^ 53 := h.most.trans_lt hsh.motes
  have hamount : 0 < UInt64.ofNat args.amount.toNat := by
    rw [UInt64.lt_iff_toNat_lt, UInt64.toNat_ofNat_of_lt' (by show _ < 2 ^ 64; omega)]
    exact Int.lt_toNat.2 hpos
  have hadm : self.Admits (UInt64.ofNat args.amount.toNat) args.sourceLabel args.sourceKind
      args.strategyHint := by
    rw [h.label, h.sourceKind, h.strategyHint]
    exact ⟨hpaused, hamount, hsh.label, hsh.sourceKind, by decide⟩
  obtain ⟨r, hr⟩ := StakeholderDeposit.exists_deposit hrec hadm (UInt64.ofNat args.nonce)
  exact ⟨_, r, if_pos ⟨hpos.le, by omega, hnonce⟩, hr⟩

/-- In every run, each deposit that is submitted is one for a known stakeholder and of an amount in
its range; as long as the clock fits a `u64`, the contract accepts it, in every state and from every
caller, unless it is paused. -/
theorem simulated_deposits_accepted {cfg : Config} {d : FundWorld.Deployment}
    {w : Pool FundOp FundAns FundWorld FundJob} (h : (FundWorld.system cfg d).Reachable w) :
    ∀ e ∈ w.log, ∀ args, e.op = .putDeposit args →
      (∃ sh ∈ stakeholders, sh.Deposits args) ∧
        (args.nonce < 2 ^ 64 → ∀ (owner : Address) (maxHistory : UInt32) (x : DepositWorld),
          (DepositWorld.system owner maxHistory).Reachable x → x.contract.paused = false →
            ∀ caller ts, ∃ call r, (FundOp.putDeposit args).depositCall = some call ∧
              x.contract.exec (x.env caller ts) call = .ok r) := by
  intro e he args hop
  have hconf : Pool.Conforms depositing (fun _ => ()) w := by
    refine Pool.conforms code_deposits ?_ h
    rintro s x op r y hans
    cases op with
    | pickStakeholder p =>
      obtain ⟨rfl, -⟩ : r = _ ∧ _ := hans
      exact pickStakeholder_mem _
    | _ => trivial
  obtain ⟨before, after, hlog⟩ := List.append_of_mem he
  have hallowed := hconf.allowed before e after hlog
  rw [hop] at hallowed
  obtain ⟨sh, hmem, hsh⟩ : ∃ sh ∈ stakeholders, sh.Deposits args := hallowed
  refine ⟨⟨sh, hmem, hsh⟩, fun hnonce owner maxHistory x hx hpaused caller ts => ?_⟩
  obtain ⟨log, -, href⟩ := exists_refines hx
  exact hsh.exists_exec (suitable_of_mem hmem) hnonce href.records hpaused _

/-- The first deposit of a simulator that draws the least amount, on a new contract. -/
theorem first_simulated_deposit : ∃ args : DepositArgs, args.amount = 10000000000 ∧
    (∃ sh ∈ stakeholders, sh.Deposits args) ∧
      ∃ call r, (FundOp.putDeposit args).depositCall = some call ∧
        (DepositWorld.deployed (.account 1) 50).contract.exec
          ((DepositWorld.deployed (.account 1) 50).env (.account 2) 7) call = .ok r := by
  have hlog : (FundWorld.after plainConfig demoDeployment [.simulate 0]).log.any
      (fun e => match e.op with
        | .putDeposit args => decide (args.amount = 10000000000 ∧ args.nonce < 2 ^ 64)
        | _ => false) = true := by decide +kernel
  obtain ⟨hreach, -⟩ :=
    @FundWorld.informed_after plainConfig demoDeployment [.simulate 0] (by decide +kernel)
  obtain ⟨e, he, hop⟩ := List.any_eq_true.1 hlog
  split at hop
  next args hargs =>
    obtain ⟨hamount, hnonce⟩ := of_decide_eq_true hop
    obtain ⟨hsh, haccepted⟩ := simulated_deposits_accepted hreach.reachable e he args hargs
    exact ⟨args, hamount, hsh, haccepted hnonce _ _ _ (.init rfl) rfl _ _⟩
  next => cases hop

end ArwaAgent
