import ArwaAgent.Contracts.RevenueEmitter
import ArwaAgent.Lib.History

/-!
# The events of RevenueEmitter are a window on an append-only log

One lemma for each entry point says what it does; over every run the ring buffer then
holds the last events of the log of all accepted emissions, and the total of an asset
is the sum of its amounts over the whole log, overwritten events included.  The sums
are exact because an addition that does not fit reverts the emission.
-/

namespace ArwaAgent

namespace RevenueEmitter

variable {self : RevenueEmitter} {env : Env} {r : Commit RevenueEmitter Event}

lemma cap_toNat (self : RevenueEmitter) : self.cap.toNat = max self.maxHistory.toNat 1 := by
  rw [cap, toNat_max]
  rfl

/-! ### What the entry points do -/

lemma transferOwnership_eq_ok_iff {newOwner : Address} :
    self.transferOwnership env newOwner = .ok r ↔ env.caller = self.owner ∧
      r = { contract := { self with pendingOwner := some newOwner }, event := none } := by
  rw [transferOwnership, onlyOwner, require_bind_eq_ok_iff]
  exact and_congr_right fun _ => ⟨fun h => by cases h; rfl, fun h => by rw [h]; rfl⟩

lemma acceptOwnership_eq_ok_iff :
    self.acceptOwnership env = .ok r ↔
      self.pendingOwner.getD zeroAddress ≠ zeroAddress ∧
      env.caller = self.pendingOwner.getD zeroAddress ∧
      r = { contract := { self with owner := env.caller, pendingOwner := some zeroAddress }
            event := some (.ownershipTransferred self.owner env.caller) } := by
  rw [acceptOwnership, require_bind_eq_ok_iff, require_bind_eq_ok_iff]
  exact and_congr_right fun _ => and_congr_right fun _ =>
    ⟨fun h => by cases h; rfl, fun h => by rw [h]; rfl⟩

lemma setEmitter_eq_ok_iff {newEmitter : Address} :
    self.setEmitter env newEmitter = .ok r ↔ env.caller = self.owner ∧
      r = { contract := { self with emitter := newEmitter }
            event := some (.emitterUpdated newEmitter) } := by
  rw [setEmitter, onlyOwner, require_bind_eq_ok_iff]
  exact and_congr_right fun _ => ⟨fun h => by cases h; rfl, fun h => by rw [h]; rfl⟩

lemma setPaused_eq_ok_iff {paused : Bool} :
    self.setPaused env paused = .ok r ↔ env.caller = self.owner ∧
      r = { contract := { self with paused := paused }, event := some (.paused paused) } := by
  rw [setPaused, onlyOwner, require_bind_eq_ok_iff]
  exact and_congr_right fun _ => ⟨fun h => by cases h; rfl, fun h => by rw [h]; rfl⟩

/-- The checks of `emitRevenue`. -/
def Admits (self : RevenueEmitter) (env : Env) (amount : U256) (source reference : String) :
    Prop :=
  self.paused = false ∧ (env.caller = self.emitter ∨ env.caller = self.owner) ∧ 0 < amount ∧
    source.utf8ByteSize ≤ 64 ∧ reference.utf8ByteSize ≤ 128

/-- The record that an accepted call of `emitRevenue` writes. -/
def newEvent (env : Env) (amount : U256) (asset : Address) (source reference : String) :
    RevenueEvent where
  timestamp := env.blockTime
  amount := amount
  asset := asset
  source := source
  emitter := env.caller
  reference := reference

/-- The event that announces a record. -/
def announced (e : RevenueEvent) : RevenueEmitted where
  amount := e.amount
  asset := e.asset
  source := e.source
  timestamp := e.timestamp
  emitter := e.emitter
  reference := e.reference

/-- The storage after the event `e` has been written into the slots. -/
def emitted (self : RevenueEmitter) (e : RevenueEvent) (events : List RevenueEvent)
    (head : UInt32) (total : U256) : RevenueEmitter :=
  { self with
    events := events
    head := head
    totalEmitted := Function.update self.totalEmitted e.asset total }

/-- An accepted emission passed every check, is appended to the log, and is added to the
total of its asset. -/
lemma emitRevenue_spec {log : List RevenueEvent} {amount : U256} {asset : Address}
    {source reference : String}
    (h : RingBuffer.Holds self.cap.toNat self.events self.head.toNat log)
    (hr : self.emitRevenue env amount asset source reference = .ok r) :
    self.Admits env amount source reference ∧ ∃ events head, ∃ total : U256,
      RingBuffer.Holds self.cap.toNat events head.toNat
        (log ++ [newEvent env amount asset source reference]) ∧
      total.toNat = (self.totalEmitted asset).toNat + amount.toNat ∧
      r = { contract := self.emitted (newEvent env amount asset source reference) events head total
            event := some (.revenueEmitted
              (announced (newEvent env amount asset source reference))) } := by
  rw [emitRevenue, require_bind_eq_ok_iff, require_bind_eq_ok_iff, require_bind_eq_ok_iff,
    require_bind_eq_ok_iff, require_bind_eq_ok_iff] at hr
  obtain ⟨hpaused, hcaller, hpos, hsource, href, hr⟩ := hr
  refine ⟨⟨hpaused, hcaller, hpos, hsource, href⟩, ?_⟩
  simp only [bind_eq_ok_iff, U256.checkedAdd_eq_ok_iff] at hr
  obtain ⟨written, hw, total, htotal, hr⟩ := hr
  obtain ⟨events, head, hring, hholds⟩ :=
    ringWrite_spec h (newEvent env amount asset source reference)
  have hwritten := hw.symm.trans hring
  cases hwritten
  cases hr
  exact ⟨events, head, total, hholds, htotal, rfl⟩

/-! ### The log of all emissions -/

/-- An accepted call of a RevenueEmitter. -/
abbrev EmitterInvocation := Invocation RevenueEmitter.Call Event

/-- The event this call emits. -/
def EmitterInvocation.emission (i : EmitterInvocation) : Option RevenueEvent :=
  match i.call with
  | .emitRevenue amount asset source reference =>
    some (newEvent i.env amount asset source reference)
  | _ => none

/-- The accepted emissions, in order. -/
def emissionsOf (h : List EmitterInvocation) : List RevenueEvent :=
  h.filterMap EmitterInvocation.emission

lemma emissionsOf_append (h : List EmitterInvocation) (i : EmitterInvocation) :
    emissionsOf (h ++ [i]) = emissionsOf h ++ i.emission.toList :=
  filterMap_snoc _ h i

/-- The amounts of the events for an asset, summed up. -/
def emittedOf (log : List RevenueEvent) (asset : Address) : ℕ :=
  ((log.filter fun e => e.asset = asset).map fun e => e.amount.toNat).sum

lemma emittedOf_append (log : List RevenueEvent) (e : RevenueEvent) (asset : Address) :
    emittedOf (log ++ [e]) asset =
      emittedOf log asset + if e.asset = asset then e.amount.toNat else 0 := by
  rw [emittedOf, List.filter_append, List.map_append, List.sum_append, ← emittedOf]
  by_cases he : e.asset = asset <;> simp [he]

/-- What the storage says about the log of all emissions. -/
structure Published (cap : ℕ) (contract : RevenueEmitter) (log : List RevenueEvent) : Prop where
  cap_eq : contract.cap.toNat = cap
  holds : RingBuffer.Holds contract.cap.toNat contract.events contract.head.toNat log
  totals : ∀ asset, (contract.totalEmitted asset).toNat = emittedOf log asset

lemma published_init (owner emitter : Address) (maxHistory : UInt32) :
    Published (max maxHistory.toNat 1) (.init owner emitter maxHistory) [] := by
  have hcap : (RevenueEmitter.init owner emitter maxHistory).cap.toNat =
      max maxHistory.toNat 1 := by
    rw [cap_toNat, RevenueEmitter.init, toNat_max]
    exact Nat.max_eq_left (Nat.le_max_right _ _)
  refine ⟨hcap, RingBuffer.holds_nil ?_, fun _ => rfl⟩
  rw [hcap]
  omega

/-- Every accepted call keeps the correspondence. -/
lemma published_step {cap : ℕ} {self : RevenueEmitter} {h : List EmitterInvocation}
    {q : Request RevenueEmitter.Call} {c : Commit RevenueEmitter Event}
    (hI : Published cap self (emissionsOf h)) (hc : self.exec q.env q.call = .ok c) :
    Published cap c.contract (emissionsOf (h ++ [{ q with event := c.event }])) := by
  rw [emissionsOf_append]
  obtain ⟨env, call⟩ := q
  cases call with
  | emitRevenue amount asset source reference =>
    obtain ⟨-, events, head, total, hholds, htotal, rfl⟩ := emitRevenue_spec hI.holds hc
    refine ⟨hI.cap_eq, hholds, fun a => ?_⟩
    show (Function.update self.totalEmitted asset total a).toNat =
      emittedOf (emissionsOf h ++ [newEvent env amount asset source reference]) a
    rw [emittedOf_append, ← hI.totals a]
    by_cases ha : a = asset
    · subst ha
      rw [Function.update_self, newEvent, if_pos rfl, htotal]
    · rw [Function.update_of_ne ha, newEvent, if_neg (Ne.symm ha)]
      rfl
  | transferOwnership newOwner =>
    obtain ⟨-, rfl⟩ := transferOwnership_eq_ok_iff.1 hc
    exact (List.append_nil _).symm ▸ ⟨hI.cap_eq, hI.holds, hI.totals⟩
  | acceptOwnership =>
    obtain ⟨-, -, rfl⟩ := acceptOwnership_eq_ok_iff.1 hc
    exact (List.append_nil _).symm ▸ ⟨hI.cap_eq, hI.holds, hI.totals⟩
  | setEmitter newEmitter =>
    obtain ⟨-, rfl⟩ := setEmitter_eq_ok_iff.1 hc
    exact (List.append_nil _).symm ▸ ⟨hI.cap_eq, hI.holds, hI.totals⟩
  | setPaused paused =>
    obtain ⟨-, rfl⟩ := setPaused_eq_ok_iff.1 hc
    exact (List.append_nil _).symm ▸ ⟨hI.cap_eq, hI.holds, hI.totals⟩

section Runs

variable {owner emitter : Address} {maxHistory : UInt32} {w : EmitterChain}

theorem published_of_reachable (hw : (emitterSystem owner emitter maxHistory).Reachable w) :
    Published (max maxHistory.toNat 1) w.contract (emissionsOf w.history) :=
  Chain.invariant (I := fun contract h => Published _ contract (emissionsOf h))
    (published_init owner emitter maxHistory) (fun _ _ _ hI hc => published_step hI hc) hw

/-- The stored events are a window on the log of all emissions, and the totals are sums over
the whole log. -/
theorem revenue_log_refines (hw : (emitterSystem owner emitter maxHistory).Reachable w) :
    (∀ limit : UInt32, w.contract.getRecentEvents limit = (emissionsOf w.history).rtake
      (min limit.toNat (min (max maxHistory.toNat 1) (emissionsOf w.history).length))) ∧
    w.contract.eventCount.toNat = min (emissionsOf w.history).length (max maxHistory.toNat 1) ∧
    ∀ asset, (w.contract.getTotalEmitted asset).toNat =
      emittedOf (emissionsOf w.history) asset := by
  have hI := published_of_reachable hw
  have hlen := hI.holds.length_eq
  have hcap := w.contract.cap.toNat_lt
  refine ⟨fun limit => ?_, ?_, hI.totals⟩
  · rw [getRecentEvents, hI.holds.recent_eq, hI.cap_eq]
  · rw [eventCount, toNat_listLen (by omega), hlen, hI.cap_eq]

end Runs

/-- The emitter pushes three events into a contract of two slots. -/
def threeEmissions : List (Request RevenueEmitter.Call) :=
  [10, 20, 30].map fun amount =>
    { env := { caller := .account 2, blockTime := 7, purse := 0 }
      call := .emitRevenue amount (.contract 5) "parking-lot-42" "" }

/-- The emitter contract after that run. -/
def emitterWithThree : EmitterChain :=
  Chain.after RevenueEmitter.exec (.init (.account 1) (.account 2) 2) threeEmissions

/-- The first event is overwritten by the third one; the total still counts it. -/
theorem revenue_log_refines_three :
    (emitterWithThree.contract.getRecentEvents 5).map RevenueEvent.amount = [20, 30] ∧
      emitterWithThree.contract.eventCount.toNat = 2 ∧
      (emitterWithThree.contract.getTotalEmitted (.contract 5)).toNat = 60 := by
  obtain ⟨hrecent, hcount, htotal⟩ :=
    revenue_log_refines (w := emitterWithThree) (Chain.reachable_after _ _)
  refine ⟨?_, ?_, ?_⟩
  · rw [hrecent]
    decide
  · rw [hcount]
    decide
  · rw [htotal]
    decide

end RevenueEmitter

end ArwaAgent
