import Drachtio.Theorems.Proxy.Timers

/-! The steps in equations. A response: a client transaction takes it, the core concludes, and what follows may
    start further targets or select a best response. A timer: the transaction it belongs to, if it is armed. -/

namespace Drachtio.Proxy
open ProxyCore

/-- Those that are done leave the vector, and after a final response the next targets are started. -/
def ProxyCore.relaunch (env : Env) (r : Response) (s : ProxyCore) : ProxyCore :=
  if 200 < r.status then ((s.removeTerminated false).startRequests env).1 else s.removeTerminated false

/-- The rest of `ProxyCore::processResponse`, once the response was handed over. -/
def ProxyCore.followUp (env : Env) (r : Response) (target : String) (s : ProxyCore) : ProxyCore :=
  match savedChallenge r with
  | some (realm, nonce) =>
    ((s.emit [.challenge realm nonce target]).removeTerminated true).forwardBestResponse env
  | none => (s.relaunch env r).finishSearch env

/-- The core after `c` took the response, before the follow-up. -/
def ProxyCore.handOver (env : Env) (r : Response) (c : ClientTransaction) (s : ProxyCore) : ProxyCore :=
  ((s.emit [.received r]).put (c.processResponse s.settings env r).1).conclude env r c.target
    (c.processResponse s.settings env r).2

/-- The client transaction for which the timer is armed. -/
def ProxyCore.firing (t : TimerName) (id : Nat) (s : ProxyCore) : Option ClientTransaction :=
  (s.all.find? (·.id == id)).filter (·.armed t)

section
variable {s : ProxyCore} {i : Input} {r : Response} {c : ClientTransaction}

theorem firing_eq_some {t : TimerName} {id : Nat} : s.firing t id = some c ↔
    s.all.find? (·.id == id) = some c ∧ c.armed t = true := Option.filter_eq_some_iff

theorem firing_spec {t : TimerName} {id : Nat} (h : s.firing t id = some c) :
    c ∈ s.all ∧ c.id = id ∧ c.armed t = true := by
  obtain ⟨hf, ha⟩ := firing_eq_some.mp h
  exact ⟨List.mem_of_find?_eq_some hf, by simpa using List.find?_some hf, ha⟩

theorem step_fired {t : TimerName} {id : Nat} (he : i.event = .timer t id) (h : s.firing t id = some c) :
    s.step i = s.fire i.env t c := by
  obtain ⟨hf, ha⟩ := firing_eq_some.mp h
  unfold ProxyCore.step
  rw [he]
  simp only [hf, ha, if_true]

theorem step_unfired {t : TimerName} {id : Nat} (he : i.event = .timer t id) (h : s.firing t id = none) :
    s.step i = s := by
  unfold ProxyCore.step
  rw [he]
  dsimp only
  split
  · rfl
  · rename_i c hf
    split
    · rename_i ha
      rw [firing_eq_some.mpr ⟨hf, ha⟩] at h
      cases h
    · rfl

theorem step_taken (he : i.event = .response r) (hc : s.taker r = some c) :
    s.step i = (s.handOver i.env r c).followUp i.env r c.target := by
  obtain ⟨hr, hm, hp, hf⟩ := taker_eq_some.mp hc
  have hf' : (s.emit [.received r]).clients.find? (·.accepts r) = some c := hf
  unfold ProxyCore.step
  rw [he]
  simp only [hm, if_true, ProxyCore.receive, emit_registered, hr, ProxyCore.processResponse, ProxyCore.dispatch, hf',
    Option.isSome_some, Option.map_some, Option.getD_some]
  rw [if_neg (hm ▸ hp)]
  rfl

theorem chain_handOver (he : i.event = .response r) (hc : s.taker r = some c) : Chain s i s (s.handOver i.env r c) := by
  have h0 : Chain s i s (s.emit [.received r]) := .single (.note _ rfl rfl rfl)
  exact Chain.conclude (h0.tail (.act ⟨rfl, rfl⟩ (.response he hc))) rfl r _ _ fun hv => ⟨he, c, hc, hv⟩

theorem chain_relaunch {t : ProxyCore} (h : Chain s i s t) : Chain s i s (t.relaunch i.env r) := by
  unfold ProxyCore.relaunch
  split
  · exact (h.tail .prune).tail .start
  · exact h.tail .prune

theorem step_untaken (he : i.event = .response r) (hm : r.method = s.request.method) (hc : s.taker r = none) :
    s.step i = (if s.registered = true ∧ r.method ≠ .prack then (s.emit [.received r]).followUp i.env r ""
      else s.emit [.received r]).emit [.forwardStateless r] := by
  unfold ProxyCore.step
  rw [he]
  simp only [hm, if_true, ProxyCore.receive, emit_registered]
  by_cases hp : s.request.method = .prack
  · simp [hp]
  · by_cases hr : s.registered = true
    · have hf : s.clients.find? (·.accepts r) = none := by
        unfold ProxyCore.taker at hc
        rwa [if_pos ⟨hr, hm, hm ▸ hp⟩] at hc
      have hf' : (s.emit [.received r]).clients.find? (·.accepts r) = none := hf
      simp only [hp, if_false, hr, if_true, ProxyCore.processResponse, ProxyCore.dispatch, hf', Option.isSome_none,
        Option.map_none, Option.getD_none, ne_eq, not_false_eq_true, and_self, Bool.false_eq_true]
      rfl
    · simp [hp, hr]

/-- A response to another request does not reach the core. -/
theorem step_foreign (he : i.event = .response r) (hm : r.method ≠ s.request.method) : s.step i = s := by
  unfold ProxyCore.step
  rw [he]
  simp only [hm, if_false]

/-! ### The log of the follow-up -/

variable {env : Env}

theorem forwardResponse_log : (s.forwardResponse env r).log =
    s.log ++ if env.sendResponse then [.forwardResponse r (s.server.replaceRSeq env r).2] else [] := by
  unfold ProxyCore.forwardResponse
  dsimp only
  split <;> simp

theorem prefix_startRequests : s.log <+: (s.startRequests env).1.log := by
  unfold ProxyCore.startRequests
  split
  · exact List.prefix_append _ _
  · exact List.prefix_rfl

theorem prefix_forwardBestResponse : s.log <+: (s.forwardBestResponse env).log := by
  have done : ∀ {u : ProxyCore}, s.log <+: u.log →
      s.log <+: (if u.settings.fullResponse then u.emit [.api .done] else u).log := fun hu => by
    split
    · exact hu.trans (List.prefix_append _ _)
    · exact hu
  unfold ProxyCore.forwardBestResponse
  dsimp only
  apply done
  split
  · simp [List.append_assoc]
  · split
    · simp [List.append_assoc]
    · rw [forwardResponse_log]
      simp [List.append_assoc]

theorem prefix_finishSearch : s.log <+: (s.finishSearch env).log := by
  unfold ProxyCore.finishSearch
  split
  · exact prefix_forwardBestResponse
  · exact List.prefix_rfl

theorem prefix_followUp {target : String} : s.log <+: (s.followUp env r target).log := by
  unfold ProxyCore.followUp
  split
  · refine List.IsPrefix.trans ?_ prefix_forwardBestResponse
    exact List.prefix_append _ _
  · refine List.IsPrefix.trans ?_ prefix_finishSearch
    unfold ProxyCore.relaunch
    split
    · exact prefix_startRequests (s := s.removeTerminated false)
    · exact List.prefix_rfl

theorem prefix_reportFinal : s.log <+: (s.reportFinal r).log := by
  unfold ProxyCore.reportFinal
  split
  · exact List.prefix_append _ _
  · exact List.prefix_rfl

theorem prefix_conclude {target : String} {v : ClientTransaction.Verdict} : s.log <+: (s.conclude env r target v).log := by
  cases v with
  | discard => exact List.prefix_rfl
  | forward => exact forwardResponse_log ▸ List.prefix_append _ _
  | answered =>
    refine List.IsPrefix.trans ?_ (forwardResponse_log ▸ List.prefix_append _ _)
    refine List.IsPrefix.trans ?_ prefix_reportFinal
    simp [notifyForwarded200OK, List.append_assoc]
  | rejected =>
    refine List.IsPrefix.trans ?_ prefix_reportFinal
    split
    · exact List.prefix_rfl
    · unfold addClientTransactions
      split
      · exact List.prefix_rfl
      · exact List.prefix_append _ _

theorem prefix_written {w : List Output} (h : s.log ++ w <+: (s.step i).log) : w <+: s.written i := by
  rw [step_log] at h
  exact (List.prefix_append_right_inj _).mp h

/-- The step writes what the taking transaction writes. -/
theorem mem_written_taken (he : i.event = .response r) (hc : s.taker r = some c) {x : Output}
    (hx : x ∈ (c.processResponse s.settings i.env r).1.2) : x ∈ s.written i := by
  have hp : s.log ++ (.received r :: (c.processResponse s.settings i.env r).1.2) <+: (s.step i).log := by
    rw [step_taken he hc]
    refine List.IsPrefix.trans ?_ (prefix_conclude.trans prefix_followUp)
    simp
  exact (prefix_written hp).subset (List.mem_cons_of_mem _ hx)

end

end Drachtio.Proxy
