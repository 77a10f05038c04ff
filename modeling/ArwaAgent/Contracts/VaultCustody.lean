import ArwaAgent.Contracts.VaultHistory

/-!
# The custody ledger of AgentVault

Five cells of the storage count what the agents told the vault: the motes in custody
and ever deposited, the positions and their number, and the yield as a whole.
`Custody` ties them to the history: the position in slot `j` is the opening number
`j + 1` of the history, with the yields recorded for the id `j + 1`.  Ids are therefore
unique, the scans for an id end at its slot, and recording yield rewrites the position
it names and no other.
-/

namespace ArwaAgent

open AgentVault

/-- What the custody part of the storage says about the history. -/
structure Custody (vault : AgentVault) (h : List VaultInvocation) : Prop where
  custodied : vault.custodiedCspr.toNat + withdrawnMotes h = depositedMotes h
  total : vault.totalCustodied.toNat = depositedMotes h
  room : vault.positions.length < 2 ^ 32
  length : vault.positions.length = (openingsOf h).length
  count : vault.positionCount.toNat = (openingsOf h).length
  position : ∀ (j : ℕ) (o : Opening), (openingsOf h)[j]? = some o → ∃ y : U256,
    vault.positions[j]? = some (o.position (UInt64.ofNat (j + 1)) y) ∧
    y.toNat = yieldOf h (UInt64.ofNat (j + 1))
  unopened : ∀ id : UInt64, (openingsOf h).length < id.toNat → yieldOf h id = 0
  yields : vault.totalYieldRealised.toNat =
    (vault.positions.map fun p => p.realisedYield.toNat).sum

lemma custody_init (owner agent : Address) (maxLogHistory : UInt32) (minStrategyAmount : U256) :
    Custody (.init owner agent maxLogHistory minStrategyAmount) [] where
  custodied := rfl
  total := rfl
  room := by show 0 < 2 ^ 32; omega
  length := rfl
  count := rfl
  position := by
    intro j o ho
    simp [openingsOf] at ho
  unopened := fun _ _ => rfl
  yields := rfl

namespace Custody

variable {self other : AgentVault} {h : List VaultInvocation} {i : VaultInvocation}

/-! ### Ids and slots -/

/-- The position in slot `j` has the id `j + 1`. -/
lemma id_toNat (hI : Custody self h) {j : ℕ} {p : Position} (hp : self.positions[j]? = some p) :
    p.id.toNat = j + 1 := by
  have hj := (List.getElem?_eq_some_iff.1 hp).1
  have hlen := hI.length
  have hroom := hI.room
  obtain ⟨y, hy, -⟩ := hI.position j _ (List.getElem?_eq_getElem (by omega))
  rw [hp, Option.some.injEq] at hy
  rw [hy]
  exact UInt64.toNat_ofNat_of_lt' (by show j + 1 < 2 ^ 64; omega)

/-- The scan for an id ends at its slot. -/
lemma findIdx?_eq (hI : Custody self h) {id : UInt64} {j : ℕ}
    (hfind : self.positions.findIdx? (fun p => p.id = id) = some j) : id.toNat = j + 1 := by
  obtain ⟨hj, hid, -⟩ := List.findIdx?_eq_some_iff_getElem.1 hfind
  rw [decide_eq_true_eq] at hid
  rw [← hid]
  exact hI.id_toNat (List.getElem?_eq_getElem hj)

lemma getPosition_eq (hI : Custody self h) {id : UInt64} {j : ℕ} {p : Position}
    (hp : self.positions[j]? = some p) (hid : id.toNat = j + 1) : self.getPosition id = p := by
  have hpid : p.id = id := UInt64.toNat_inj.1 (by rw [hI.id_toNat hp, hid])
  have hfind : self.positions.find? (fun p => p.id = id) = some p := by
    cases hfound : self.positions.find? fun p => p.id = id with
    | none =>
      have hnone := List.find?_eq_none.1 hfound p (List.mem_of_getElem? hp)
      simp [hpid] at hnone
    | some q =>
      -- the position found has the same id, so it is in the same slot
      have hq := List.find?_some hfound
      rw [decide_eq_true_eq] at hq
      obtain ⟨k, hk⟩ := List.mem_iff_getElem?.1 (List.mem_of_find?_eq_some hfound)
      have hkid := hI.id_toNat hk
      rw [hq, hid] at hkid
      obtain rfl : j = k := by omega
      rw [← hp, ← hk]
  rw [getPosition, positions_take hI.room, hfind]

/-- `getPosition` answers the zeroed record for an id that no position has. -/
lemma getPosition_eq_zeroed (hI : Custody self h) {id : UInt64}
    (hid : id = 0 ∨ self.positions.length < id.toNat) : self.getPosition id = zeroedPosition := by
  have hfind : self.positions.find? (fun p => p.id = id) = none := by
    refine List.find?_eq_none.2 fun p hp hpid => ?_
    rw [decide_eq_true_eq] at hpid
    obtain ⟨k, hk⟩ := List.mem_iff_getElem?.1 hp
    have hkid := hI.id_toNat hk
    have hklt := (List.getElem?_eq_some_iff.1 hk).1
    rw [hpid] at hkid
    rcases hid with rfl | hid
    · rw [UInt64.toNat_zero] at hkid
      omega
    · omega
  rw [getPosition, positions_take hI.room, hfind]

/-! ### Steps -/

lemma frame (hI : Custody self h) (hopening : i.opening = none) (hyielded : i.yielded = none)
    (hcust : other.custodiedCspr.toNat + withdrawnMotes (h ++ [i]) = depositedMotes (h ++ [i]))
    (htotal : other.totalCustodied.toNat = depositedMotes (h ++ [i]))
    (hpos : other.positions = self.positions) (hcount : other.positionCount = self.positionCount)
    (hyields : other.totalYieldRealised = self.totalYieldRealised) : Custody other (h ++ [i]) where
  custodied := hcust
  total := htotal
  room := by rw [hpos]; exact hI.room
  length := by rw [hpos, openingsOf_append_of_none hopening]; exact hI.length
  count := by rw [hcount, openingsOf_append_of_none hopening]; exact hI.count
  position := by
    rw [hpos, openingsOf_append_of_none hopening, yieldOf_append_of_none hyielded]
    exact hI.position
  unopened := by
    rw [openingsOf_append_of_none hopening, yieldOf_append_of_none hyielded]
    exact hI.unopened
  yields := by rw [hpos, hyields]; exact hI.yields

lemma keep (hI : Custody self h) (hopening : i.opening = none) (hyielded : i.yielded = none)
    (hdeposited : i.deposited = none) (hwithdrew : i.withdrew = none)
    (hcust : other.custodiedCspr = self.custodiedCspr)
    (htotal : other.totalCustodied = self.totalCustodied)
    (hpos : other.positions = self.positions) (hcount : other.positionCount = self.positionCount)
    (hyields : other.totalYieldRealised = self.totalYieldRealised) :
    Custody other (h ++ [i]) := by
  refine hI.frame hopening hyielded ?_ ?_ hpos hcount hyields
  · rw [withdrawnMotes_append, depositedMotes_append, hdeposited, hwithdrew, hcust]
    exact hI.custodied
  · rw [depositedMotes_append, hdeposited, htotal]
    exact hI.total

/-- A new position takes the next slot and the next id. -/
lemma opened (hI : Custody self h) {o : Opening} (hroom : self.positions.length + 1 < 2 ^ 32)
    (hopening : i.opening = some o) (hyielded : i.yielded = none)
    (hdeposited : i.deposited = none) (hwithdrew : i.withdrew = none) :
    Custody (self.opened o) (h ++ [i]) := by
  have hlen := hI.length
  have hopen : openingsOf (h ++ [i]) = openingsOf h ++ [o] := by
    rw [openingsOf_append, hopening, Option.toList_some]
  have hyield := yieldOf_append_of_none (h := h) hyielded
  have hid : self.positionCount + 1 = UInt64.ofNat ((openingsOf h).length + 1) := by
    rw [UInt64.ofNat_add, ← hI.count, UInt64.ofNat_toNat]
    rfl
  refine ⟨?_, ?_, ?_, ?_, ?_, ?_, ?_, ?_⟩
  · rw [withdrawnMotes_append, depositedMotes_append, hdeposited, hwithdrew]
    exact hI.custodied
  · rw [depositedMotes_append, hdeposited]
    exact hI.total
  · show (self.positions ++ [_]).length < 2 ^ 32
    rw [List.length_append, List.length_singleton]
    exact hroom
  · show (self.positions ++ [_]).length = _
    rw [hopen, List.length_append, List.length_append, hlen]
    rfl
  · show (self.positionCount + 1).toNat = _
    rw [hid, hopen, List.length_append, List.length_singleton]
    exact UInt64.toNat_ofNat_of_lt' (by show _ < 2 ^ 64; omega)
  · intro j o' ho'
    rw [hopen, getElem?_snoc_eq_some_iff] at ho'
    rw [hyield]
    rcases ho' with ho' | ⟨rfl, rfl⟩
    · obtain ⟨y, hy, hsum⟩ := hI.position j o' ho'
      exact ⟨y, getElem?_snoc_eq_some_iff.2 (Or.inl hy), hsum⟩
    · -- the new position has no yield yet, and none was recorded for its id
      refine ⟨0, getElem?_snoc_eq_some_iff.2 (Or.inr ⟨hlen.symm, by rw [hid]⟩), ?_⟩
      refine (hI.unopened _ ?_).symm
      rw [UInt64.toNat_ofNat_of_lt' (by show _ < 2 ^ 64; omega)]
      omega
  · intro id hlt
    rw [hopen, List.length_append, List.length_singleton] at hlt
    rw [hyield]
    exact hI.unopened id (by omega)
  · show self.totalYieldRealised.toNat = ((self.positions ++ [_]).map _).sum
    rw [List.map_append, List.sum_append, hI.yields]
    rfl

lemma credited (hI : Custody self h) {id : UInt64} {amount realised total : U256} {j : ℕ}
    {p : Position} (hid : id.toNat = j + 1) (hp : self.positions[j]? = some p)
    (hreal : realised.toNat = p.realisedYield.toNat + amount.toNat)
    (htotal : total.toNat = self.totalYieldRealised.toNat + amount.toNat)
    (hopening : i.opening = none) (hyielded : i.yielded = some (id, amount))
    (hdeposited : i.deposited = none) (hwithdrew : i.withdrew = none) :
    Custody (self.credited j p realised total) (h ++ [i]) := by
  have hlen := hI.length
  have hroom := hI.room
  have hj := (List.getElem?_eq_some_iff.1 hp).1
  have hopen := openingsOf_append_of_none (h := h) hopening
  have hyield : ∀ id', yieldOf (h ++ [i]) id' =
      yieldOf h id' + if id = id' then amount.toNat else 0 := by
    intro id'
    rw [yieldOf_append, hyielded, Option.elim_some]
  have hofNat : ∀ k, k < self.positions.length → (UInt64.ofNat (k + 1)).toNat = k + 1 :=
    fun k hk => UInt64.toNat_ofNat_of_lt' (by show k + 1 < 2 ^ 64; omega)
  refine ⟨?_, ?_, ?_, ?_, ?_, ?_, ?_, ?_⟩
  · rw [withdrawnMotes_append, depositedMotes_append, hdeposited, hwithdrew]
    exact hI.custodied
  · rw [depositedMotes_append, hdeposited]
    exact hI.total
  · show (self.positions.set _ _).length < 2 ^ 32
    rw [List.length_set]
    exact hroom
  · show (self.positions.set _ _).length = _
    rw [List.length_set, hopen]
    exact hlen
  · rw [hopen]
    exact hI.count
  · intro k o ho
    rw [hopen] at ho
    have hk : k < self.positions.length := by
      rw [hlen]
      exact (List.getElem?_eq_some_iff.1 ho).1
    obtain ⟨y, hy, hsum⟩ := hI.position k o ho
    show ∃ y, (self.positions.set j _)[k]? = _ ∧ _
    by_cases hjk : j = k
    · subst hjk
      rw [hp, Option.some.injEq] at hy
      have hidj : id = UInt64.ofNat (j + 1) := UInt64.toNat_inj.1 (by rw [hid, hofNat j hj])
      refine ⟨realised, ?_, ?_⟩
      · rw [List.getElem?_set_self hj, hy]
        rfl
      · rw [hyield, if_pos hidj, hreal, ← hsum, hy]
        rfl
    · have hne : id ≠ UInt64.ofNat (k + 1) := by
        intro heq
        rw [heq, hofNat k hk] at hid
        omega
      refine ⟨y, ?_, ?_⟩
      · rw [List.getElem?_set_ne hjk]
        exact hy
      · rw [hyield, if_neg hne]
        exact hsum
  · intro id' hlt
    rw [hopen] at hlt
    rw [hyield, hI.unopened id' hlt, if_neg]
    rintro rfl
    omega
  · show total.toNat = ((self.positions.set j _).map _).sum
    have hset := sum_map_set (fun p : Position => p.realisedYield.toNat) hp
      { p with realisedYield := realised }
    simp only at hset
    rw [htotal, hI.yields]
    omega

end Custody

/-- Every accepted call keeps the correspondence. -/
lemma custody_step {self : AgentVault} {h : List VaultInvocation} {q : Request AgentVault.Call}
    {c : Commit AgentVault VaultEvent} (hI : Custody self h)
    (hc : self.exec q.env q.call = .ok c) :
    Custody c.contract (h ++ [{ q with event := c.event }]) := by
  have hcust := hI.custodied
  have htotal := hI.total
  obtain ⟨env, call⟩ := q
  cases call with
  | registerAgent agent =>
    obtain ⟨-, rfl⟩ := registerAgent_eq_ok_iff.1 hc
    exact hI.keep rfl rfl rfl rfl rfl rfl rfl rfl rfl
  | unregisterAgent agent =>
    obtain ⟨-, rfl⟩ := unregisterAgent_eq_ok_iff.1 hc
    exact hI.keep rfl rfl rfl rfl rfl rfl rfl rfl rfl
  | executeStrategy args =>
    obtain ⟨-, -, slots, head, -, rfl⟩ := contract_of_executeStrategy hc
    exact hI.keep rfl rfl rfl rfl rfl rfl rfl rfl rfl
  | depositForStrategy amount source =>
    obtain ⟨-, -, -, custodied, total, hc, ht, rfl⟩ := depositForStrategy_eq_ok_iff.1 hc
    refine hI.frame rfl rfl ?_ ?_ rfl rfl rfl
    · rw [withdrawnMotes_append, depositedMotes_append]
      show custodied.toNat + (_ + 0) = _ + amount.toNat
      omega
    · rw [depositedMotes_append]
      show total.toNat = _ + amount.toNat
      omega
  | recordStrategyExecution kind target amount openedTx =>
    obtain ⟨hadmits, rfl⟩ := recordStrategyExecution_eq_ok_iff.1 hc
    exact hI.opened hadmits.2.2.2.2.2 rfl rfl rfl rfl
  | recordYieldRealised positionId yieldAmount sourceTx =>
    obtain ⟨-, -, -, j, p, realised, total, hfind, hp, hreal, ht, rfl⟩ :=
      (recordYieldRealised_eq_ok_iff hI.room).1 hc
    exact hI.credited (hI.findIdx?_eq hfind) hp hreal ht rfl rfl rfl rfl
  | withdrawForStrategy amount reason =>
    obtain ⟨⟨-, -, hle, -⟩, rfl⟩ := withdrawForStrategy_eq_ok_iff.1 hc
    refine hI.frame rfl rfl ?_ ?_ rfl rfl rfl
    · rw [withdrawnMotes_append, depositedMotes_append]
      show (self.custodiedCspr - amount).toNat + (_ + amount.toNat) = _ + 0
      rw [BitVec.toNat_sub_of_le hle]
      rw [BitVec.le_def] at hle
      omega
    · rw [depositedMotes_append]
      exact htotal

/-! ### Recorded yield stays with its position -/

section Yield

variable {self : AgentVault} {h : List VaultInvocation} {env : Env}
  {c : Commit AgentVault VaultEvent} {id : UInt64} {amount : U256} {sourceTx : String}

lemma Custody.positions_recordYield (hI : Custody self h)
    (hc : self.recordYieldRealised env id amount sourceTx = .ok c) :
    c.contract.positions.length = self.positions.length ∧
      ∀ (j : ℕ) (p : Position), self.positions[j]? = some p → p.id ≠ id →
        c.contract.positions[j]? = some p := by
  obtain ⟨-, -, -, k, p, realised, total, hfind, hp, -, -, rfl⟩ :=
    (recordYieldRealised_eq_ok_iff hI.room).1 hc
  refine ⟨List.length_set, fun j q hq hne => ?_⟩
  have hid : p.id = id := by
    obtain ⟨hk, hid, -⟩ := List.findIdx?_eq_some_iff_getElem.1 hfind
    rw [List.getElem?_eq_getElem hk, Option.some.injEq] at hp
    rw [decide_eq_true_eq, hp] at hid
    exact hid
  have hkj : k ≠ j := by
    rintro rfl
    rw [hp, Option.some.injEq] at hq
    exact hne (hq ▸ hid)
  show (self.positions.set k _)[j]? = some q
  rw [List.getElem?_set_ne hkj, hq]

lemma Custody.getPosition_recordYield (hI : Custody self h)
    (hc : self.recordYieldRealised env id amount sourceTx = .ok c) {id' : UInt64}
    (hne : id' ≠ id) : c.contract.getPosition id' = self.getPosition id' := by
  obtain ⟨hlen, hslots⟩ := hI.positions_recordYield hc
  have hI' := custody_step (q := ⟨env, .recordYieldRealised id amount sourceTx⟩) hI hc
  by_cases hout : id' = 0 ∨ self.positions.length < id'.toNat
  · rw [hI.getPosition_eq_zeroed hout, hI'.getPosition_eq_zeroed (by rw [hlen]; exact hout)]
  · rw [not_or] at hout
    have hpos : id'.toNat ≠ 0 := fun h0 => hout.1 (UInt64.toNat_inj.1 h0)
    obtain ⟨j, hj⟩ : ∃ j, id'.toNat = j + 1 := ⟨id'.toNat - 1, by omega⟩
    have hlt : j < self.positions.length := by omega
    have hp := List.getElem?_eq_getElem hlt
    have hid := hI.getPosition_eq hp hj
    have hpid : self.positions[j].id = id' :=
      UInt64.toNat_inj.1 (by rw [hI.id_toNat hp, hj])
    rw [hid, hI'.getPosition_eq (hslots j _ hp (by rw [hpid]; exact hne)) hj]

end Yield

section Runs

variable {owner agent : Address} {maxLogHistory : UInt32} {minStrategyAmount : U256}
  {w : VaultChain}

theorem custody_of_reachable
    (hw : (vaultSystem owner agent maxLogHistory minStrategyAmount).Reachable w) :
    Custody w.contract w.history :=
  Chain.invariant (custody_init owner agent maxLogHistory minStrategyAmount)
    (fun _ _ _ hI hc => custody_step hI hc) hw

end Runs

/-- Account 2 opens two positions and claims yield from the first one. -/
def twoPositions : List (Request AgentVault.Call) :=
  [.depositForStrategy 100 "stake", .recordStrategyExecution "validator_delegate" "01aa" 60 "tx-1",
    .recordStrategyExecution "lp" "CSPR/sCSPR" 30 "tx-2", .recordYieldRealised 1 5 "tx-3",
    .withdrawForStrategy 40 "returned"].map fun call =>
      { env := { caller := .account 2, blockTime := 7, purse := 0 }, call }

/-- The vault after that run. -/
def vaultWithTwo : VaultChain :=
  Chain.after AgentVault.exec (.init (.account 1) (.account 2) 2 1) twoPositions

end ArwaAgent
