import ArwaAgent.Lib.Transition
import ArwaAgent.Mcp.Connection

/-!
# The clients after an outage

A module should serve its calls as a resource on demand: one attempt at a time, the same
client once there is one, and a new attempt after a failure.  It does so as long as no call
comes after a failed attempt.  After one, `initPromise` still holds the rejected promise,
and every later call is answered with it, whatever has become of the server.
-/

namespace ArwaAgent.Mcp

open Js OnDemand

/-- What a call should do, and what is to hold after every step. -/
structure Resilient (server : Server) (m : Module) (e : McpEvent) : Prop where
  /-- at most one attempt is under way -/
  oneAttempt : (m.step server e).attempts.countP Attempt.isPending ≤ 1
  /-- a call waits for the attempt that is under way -/
  joins : ∀ setup n client, e = .call setup → m.attempts[n]? = some (.pending client) →
    (getMcp server m setup).1 = .attempt n
  /-- after a success, a call returns that client -/
  sameClient : ∀ setup client, e = .call setup → .done client ∈ m.attempts →
    (getMcp server m setup).1 = .value client
  /-- after failures only, a call waits for an attempt of its own -/
  newAttempt : ∀ setup, e = .call setup → (∀ a ∈ m.attempts, a.isFailed = true) →
    (getMcp server m setup).1 = .attempt m.attempts.length ∧
      (m.step server e).attempts = m.attempts ++
        [.start (setup.map fun cfg => server.client cfg m.attempts.length)]
  /-- and has its client if the attempt connects -/
  reconnects : ∀ cfg, e = .call (.ok cfg) → (∀ a ∈ m.attempts, a.isFailed = true) →
    (getMcp server m (.ok cfg)).1.outcome
        ((m.step server e).step server (.connected m.attempts.length)).attempts =
      some (.ok (server.client cfg m.attempts.length))

/-- Side condition on a step: a call finds no failed attempt. -/
def BeforeFailure (m : Module) : McpEvent → Prop
  | .call _ => ∀ a ∈ m.attempts, a.isFailed = false
  | _ => True

/-- The event of a resource on demand that a step of a module is. -/
def McpEvent.toEvent (server : Server) : McpEvent → Event Client Error
  | .call setup => .request fun n => setup.map fun cfg => server.client cfg n
  | .connected n => .succeed n
  | .failed n e => .fail n e

/-- The states that a module is ever in. -/
inductive Stage : Module → Prop
  | unused : Stage ⟨none, none, []⟩
  | connecting (client : Client) : Stage ⟨none, some 0, [.pending client]⟩
  | connected (client : Client) : Stage ⟨some client, some 0, [.done client]⟩
  | broken (e : Error) : Stage ⟨none, some 0, [.failed e]⟩

section

variable {server : Server} {m : Module} {e : McpEvent} {setup : Except Error McpConfig}

lemma Stage.single (h : Stage m) : Single m.attempts := by
  cases h <;> simp [Single, Attempt.isFailed]

lemma step_connected (server : Server) (client : Client) (e : McpEvent) :
    Module.step server ⟨some client, some 0, [.done client]⟩ e =
      ⟨some client, some 0, [.done client]⟩ := by
  cases e with
  | call setup => rfl
  | connected n => cases n <;> rfl
  | failed n error => cases n <;> rfl

lemma step_broken (server : Server) (error : Error) (e : McpEvent) :
    Module.step server ⟨none, some 0, [.failed error]⟩ e = ⟨none, some 0, [.failed error]⟩ := by
  cases e with
  | call setup => rfl
  | connected n => cases n <;> rfl
  | failed n e => cases n <;> rfl

lemma Stage.step (h : Stage m) (server : Server) (e : McpEvent) : Stage (m.step server e) := by
  cases h with
  | unused => cases e with
    | call setup => cases setup with
      | ok cfg => exact .connecting _
      | error e => exact .broken e
    | connected n => exact .unused
    | failed n e => exact .unused
  | connecting client => cases e with
    | call setup => exact .connecting client
    | connected n => cases n with
      | zero => exact .connected client
      | succ n => exact .connecting client
    | failed n e => cases n with
      | zero => exact .broken e
      | succ n => exact .connecting client
  | connected client =>
    rw [step_connected]
    exact .connected client
  | broken error =>
    rw [step_broken]
    exact .broken error

/-- As long as no attempt has failed, a module replies as a resource on demand does. -/
lemma Stage.reply_getMcp (h : Stage m) (hm : ∀ a ∈ m.attempts, a.isFailed = false)
    (setup : Except Error McpConfig) : (getMcp server m setup).1 = reply m.attempts := by
  cases h with
  | broken e => cases hm _ (List.mem_singleton_self _)
  | _ => rfl

/-- The attempts of a module are those of a resource on demand, except for a call after a
failure. -/
lemma Stage.attempts_step (h : Stage m) (server : Server) (he : BeforeFailure m e) :
    (m.step server e).attempts = OnDemand.step m.attempts (e.toEvent server) := by
  cases e with
  | call setup =>
    cases h with
    | broken e => cases he _ (List.mem_singleton_self _)
    | _ => rfl
  | connected n =>
    cases h with
    | unused => rfl
    | _ => cases n <;> rfl
  | failed n e => rfl

/-- A step is as it should be exactly when it is not a call after a failure. -/
lemma Stage.resilient_iff (h : Stage m) : Resilient server m e ↔ BeforeFailure m e := by
  constructor
  · intro hr
    cases e with
    | call setup =>
      cases h with
      | unused => simp [BeforeFailure]
      | connecting client => simp [BeforeFailure, Attempt.isFailed]
      | connected client => simp [BeforeFailure, Attempt.isFailed]
      | broken e =>
        -- the reply is the promise of the failed attempt
        have hreply := (hr.newAttempt setup rfl (by simp [Attempt.isFailed])).1
        cases hreply
    | _ => trivial
  · intro he
    have hattempts := h.attempts_step server he
    refine ⟨?_, ?_, ?_, ?_, ?_⟩
    · rw [hattempts]
      exact (h.single.step _).countP_isPending_le
    · rintro setup n client rfl hpending
      rw [h.reply_getMcp he setup, reply_of_pending h.single hpending]
    · rintro setup client rfl hdone
      rw [h.reply_getMcp he setup, reply_of_done h.single hdone]
    · rintro setup rfl hfailed
      rw [h.reply_getMcp he setup, reply_of_failed hfailed, hattempts]
      exact ⟨rfl, step_request_of_failed hfailed _⟩
    · rintro cfg rfl hfailed
      have hafter : ((m.step server (.call (.ok cfg))).step server
          (.connected m.attempts.length)).attempts = _ :=
        (h.step server (.call (.ok cfg))).attempts_step server trivial
      rw [h.reply_getMcp he _, reply_of_failed hfailed, hafter, hattempts]
      show Reply.outcome (OnDemand.step (OnDemand.step _ (.request _)) (.succeed _)) _ = _
      rw [step_request_of_failed hfailed]
      exact outcome_of_succeed _

theorem getMcp_after_failure (hm : Stage m) {error : Error} (herror : .failed error ∈ m.attempts)
    (server : Server) (events : List McpEvent) (setup : Except Error McpConfig) :
    (getMcp server (events.foldl (Module.step server) m) setup).1.outcome
      (events.foldl (Module.step server) m).attempts = some (.error error) := by
  cases hm with
  | broken e =>
    cases List.mem_singleton.1 herror
    rw [List.foldl_fixed' (step_broken server error)]
    rfl
  | unused => simp at herror
  | _ => simp at herror

/-- A call after an outage is answered with the promise of the failed attempt. -/
lemma not_resilient_after_outage (server : Server) (cfg : McpConfig) (error : Error) :
    ¬ TransitionSystem.Along (Module.step server) (Resilient server) .initial
      [.call (.ok cfg), .failed 0 error, .call (.ok cfg)] := by
  rintro ⟨-, -, hcall, -⟩
  have hbroken : Stage ⟨none, some 0, [.failed error]⟩ := .broken error
  have hfine := hbroken.resilient_iff.1 hcall _ (List.mem_singleton_self _)
  cases hfine

end

/-- Every step of a run is as it should be exactly when no call of it comes after a failed
attempt. -/
theorem resilient_along_iff (server : Server) (events : List McpEvent) :
    TransitionSystem.Along (Module.step server) (Resilient server) .initial events ↔
      TransitionSystem.Along (Module.step server) BeforeFailure .initial events :=
  TransitionSystem.along_congr (J := Stage) (fun _ e hm => hm.step server e)
    (fun _ _ hm => hm.resilient_iff) Stage.unused events

/-- A configuration with the default URLs. -/
def defaultUrls : McpConfig :=
  ⟨"http://localhost:3001/mcp", "https://mcp.testnet.cspr.cloud/mcp", "key"⟩

/-- Neither module recovers from an outage. -/
theorem outage_is_not_overcome :
    (¬ ∀ events, TransitionSystem.Along (Module.step csprTrade) (Resilient csprTrade) .initial
        events) ∧
      ¬ ∀ events, TransitionSystem.Along (Module.step casper) (Resilient casper) .initial events :=
  ⟨fun h => not_resilient_after_outage csprTrade defaultUrls ⟨"fetch failed"⟩ (h _),
    fun h => not_resilient_after_outage casper defaultUrls ⟨"fetch failed"⟩ (h _)⟩

end ArwaAgent.Mcp
