import Drachtio.Theorems.Proxy.Response

/-! What becomes of the responses of a target that the core has given up on. They are taken care of as long as the
    transaction is still in the vector, in a state in which the response is not swallowed: the branch for late
    responses cancels whatever comes, a final response included, and an expired provisional timer leaves a
    transaction that looks completed. -/

namespace Drachtio.Proxy
open ProxyCore

/-- A 2xx of another target went upstream. -/
def Output.answeredElsewhere (id : Nat) : Output → Bool
  | .forwardResponse r _ => 200 ≤ r.status && r.status ≤ 299 && r.branch != id
  | _ => false

/-- A provisional response of the target. -/
def Output.provisionalFrom (id : Nat) : Output → Bool
  | .received r => 100 ≤ r.status && r.status ≤ 199 && r.branch == id
  | _ => false

/-- The core no longer wants an answer from the target: the INVITE was canceled, one of the two timers that give
    up expired, or another target answered. -/
def GivenUp (s : ProxyCore) (c : ClientTransaction) : Prop :=
  c.isInviteTransaction = true ∧ (c.canceled = true ∨ .timerFired .timerProvisional c.id ∈ s.log ∨
    .timerFired .timerC c.id ∈ s.log ∨ ∃ x ∈ s.log, x.answeredElsewhere c.id = true)

instance (s : ProxyCore) (c : ClientTransaction) : Decidable (GivenUp s c) :=
  inferInstanceAs (Decidable (_ ∧ _))

/-- The response is the first provisional one of its target. -/
def FirstProvisional (s : ProxyCore) (r : Response) : Prop :=
  (100 ≤ r.status ∧ r.status ≤ 199) ∧ ∀ x ∈ s.log, x.provisionalFrom r.branch = false

instance (s : ProxyCore) (r : Response) : Decidable (FirstProvisional s r) :=
  inferInstanceAs (Decidable (_ ∧ _))

/-- The step takes care of a response of a target that was given up. -/
structure TakenCareOf (s : ProxyCore) (i : Input) (r : Response) (c : ClientTransaction) : Prop where
  provisional : FirstProvisional s r → .sendCancel c.id ∈ (s.step i).log
  success : 200 ≤ r.status ∧ r.status ≤ 299 →
    (∃ rseq, .forwardResponse r rseq ∈ s.written i) ∨ .forwardStateless r ∈ s.written i
  failure : 300 ≤ r.status → .sendAck c.id ∈ s.written i

def NoOrphan (s : ProxyCore) (i : Input) : Prop :=
  ∀ r, i.event = .response r → r.method = s.request.method → ∀ c ∈ s.all, c.branch = some r.branch → GivenUp s c →
    TakenCareOf s i r c

/-- What a response of a target that was given up has to find. -/
def Awaited (s : ProxyCore) (env : Env) : Event → Prop
  | .response r => r.method = s.request.method → ∀ c ∈ s.all, c.branch = some r.branch → GivenUp s c →
      (FirstProvisional s r → .sendCancel c.id ∈ s.log ∨
        s.taker r = some c ∧ c.isLate r = true ∧ env.sendCancel c.id = true) ∧
      (200 ≤ r.status ∧ r.status ≤ 299 → s.taker r = none ∨
        s.taker r = some c ∧ c.isCallingOrProceeding = true ∧ env.sendResponse = true) ∧
      (300 ≤ r.status → s.taker r = some c ∧
        (c.isCallingOrProceeding = true ∨ c.state = .completed ∧ c.isLate r = false))
  | _ => True

instance (s : ProxyCore) (env : Env) : ∀ e, Decidable (Awaited s env e)
  | .response _ => inferInstanceAs (Decidable (_ → ∀ c ∈ s.all, _ → _ → _ ∧ _ ∧ _))
  | .timer _ _ | .cancel | .info _ | .prack _ => isTrue trivial

section
variable {s : ProxyCore} {i : Input} {r : Response} {c : ClientTransaction}

/-- A transaction that is being called takes every response to its INVITE as a new one. -/
theorem processResponse_active {k : Settings} {env : Env} (hs : c.isCallingOrProceeding = true) (hm : c.method = r.method) :
    c.processResponse k env r = c.processNewResponse k r := by
  have hst : c.state = .calling ∨ c.state = .proceeding := by
    simpa [ClientTransaction.isCallingOrProceeding] using hs
  refine ClientTransaction.processResponse_new ?_ ?_ hm ?_
  · rcases hst with h | h <;> simp [h]
  · by_contra hl
    have hl : c.isLate r = true := by simpa using hl
    have := (ClientTransaction.isLate_iff.mp hl).2.1
    rcases hst with h | h <;> simp [h] at this
  · rintro ⟨hc, -⟩
    rcases hst with h | h <;> simp [h] at hc

/-- A 2xx to a transaction that is being called goes upstream. -/
theorem forwardResponse_mem_step (he : i.event = .response r) (hc : s.taker r = some c)
    (hs : c.isCallingOrProceeding = true) (hm : c.method = r.method) (hst : 200 ≤ r.status ∧ r.status ≤ 299)
    (hsend : i.env.sendResponse = true) : ∃ rseq, .forwardResponse r rseq ∈ s.written i := by
  have hv : (c.processResponse s.settings i.env r).2 = .answered := by
    rw [processResponse_active hs hm, ClientTransaction.processNewResponse_verdict, if_neg (by omega), if_pos hst]
  have hlog : ∃ w rseq, s.log ++ (w ++ [.forwardResponse r rseq]) = (s.handOver i.env r c).log := by
    unfold ProxyCore.handOver
    rw [hv, ProxyCore.conclude, forwardResponse_log, if_pos hsend]
    obtain ⟨w, hw⟩ : s.log <+: (((s.emit [.received r]).put (c.processResponse s.settings i.env r).1).notifyForwarded200OK
        i.env |>.reportFinal r).log := by
      refine List.IsPrefix.trans ?_ prefix_reportFinal
      simp [notifyForwarded200OK, List.append_assoc]
    exact ⟨w, _, by rw [← hw, List.append_assoc]⟩
  obtain ⟨w, rseq, hlog⟩ := hlog
  have hp : s.log ++ (w ++ [.forwardResponse r rseq]) <+: (s.step i).log := by
    rw [hlog, step_taken he hc]
    exact prefix_followUp
  exact ⟨rseq, (prefix_written hp).subset (by simp)⟩

theorem step_noOrphan (hr : Reached s) (h : Awaited s i.env i.event) : NoOrphan s i := by
  intro r he hmeth c hc hb hg
  rw [he] at h
  obtain ⟨h1, h2, h3⟩ := h hmeth c hc hb hg
  -- The target has a branch, so its transaction was launched and has the method of the response.
  have hm : c.method = r.method := by
    rcases hr.typed c hc with hd | ⟨-, hm⟩
    · rw [hd.branch] at hb
      cases hb
    · rw [hm, hmeth]
  refine ⟨fun hf => ?_, fun hst => ?_, fun hst => ?_⟩
  · rcases h1 hf with hlog | ⟨ht, hlate, hsend⟩
    · rw [step_log]
      exact List.mem_append_left _ hlog
    · have hmem : .sendCancel c.id ∈ s.written i := mem_written_taken he ht (by
        rw [(ClientTransaction.processResponse_late hlate).2.1, if_pos hsend]
        simp)
      rw [step_log]
      exact List.mem_append_right _ hmem
  · rcases h2 hst with hn | ⟨ht, hs, hsend⟩
    · refine Or.inr ?_
      obtain ⟨w, hw⟩ : ∃ w, s.log ++ (w ++ [.forwardStateless r]) = (s.step i).log := by
        rw [step_untaken he hmeth hn, emit_log]
        split
        · obtain ⟨w, hw⟩ : (s.emit [.received r]).log <+: ((s.emit [.received r]).followUp i.env r "").log :=
            prefix_followUp
          exact ⟨.received r :: w, by rw [← hw]; simp⟩
        · exact ⟨[.received r], by simp⟩
      have hp : s.log ++ (w ++ [.forwardStateless r]) <+: (s.step i).log := ⟨[], (List.append_nil _).trans hw⟩
      exact (prefix_written hp).subset (by simp)
    · exact Or.inl (forwardResponse_mem_step he ht hs hm hst hsend)
  · obtain ⟨ht, hs | ⟨hcomp, hlate⟩⟩ := h3 hst
    · refine mem_written_taken he ht ?_
      rw [processResponse_active hs hm]
      exact ClientTransaction.sendAck_mem_processNewResponse hg.1 hst
    · refine mem_written_taken he ht ?_
      rw [ClientTransaction.processResponse_repeated hcomp hlate hm (by omega), if_pos hg.1]
      simp

end

/-- In a run in which the responses of given-up targets are awaited, each of them is taken care of. -/
theorem no_orphans (k : Settings) (env : Env) (req : Request) (destinations : List String) (is : List Input) (i : Input)
    (h : Machine.Meets step (fun s i => Awaited s i.env i.event) (doProxy k env req destinations) (is ++ [i])) :
    NoOrphan (Machine.run step (doProxy k env req destinations) is) i := by
  obtain ⟨-, hawait, -⟩ := Machine.meets_append.mp h
  exact step_noOrphan (run_reached k env req destinations is) hawait

/-- The caller hangs up before the target rings, and the target answers at once: the 200 is swallowed. -/
theorem no_orphans_200 :
    let s := Machine.run step (doProxy { launchType := .serial } .reliable { method := .invite } ["sip:a.example.org"])
      [⟨.reliable, .cancel⟩]
    ¬NoOrphan s ⟨.reliable, .response { status := 200, method := .invite, branch := 0 }⟩ := by
  intro s h
  have hall : ∃ c ∈ s.all, c.branch = some 0 ∧ GivenUp s c := by decide
  obtain ⟨c, hc, hb, hg⟩ := hall
  rcases (h _ rfl (by decide) c hc hb hg).success (by decide) with ⟨rseq, hf⟩ | hf
  · have hnone : ∀ x ∈ s.written ⟨.reliable, .response { status := 200, method := .invite, branch := 0 }⟩,
        x.isForward = false := by decide
    exact Bool.noConfusion (hnone _ hf)
  · exact absurd hf (by decide)

/-- The target rings after the caller has hung up, is canceled, and refuses. -/
theorem no_orphans_ringing :
    let is : List Input := [⟨.reliable, .cancel⟩, ⟨.reliable, .response { status := 180, method := .invite, branch := 0 }⟩]
    let i : Input := ⟨.reliable, .response { status := 487, method := .invite, branch := 0 }⟩
    let s := doProxy { launchType := .serial } .reliable { method := .invite } ["sip:a.example.org"]
    .sendCancel 0 ∈ (Machine.run step s is).log ∧ (∃ c ∈ (Machine.run step s is).all, GivenUp (Machine.run step s is) c) ∧
      NoOrphan (Machine.run step s is) i :=
  ⟨by decide, by decide, no_orphans _ _ _ _ _ _ (by decide)⟩

end Drachtio.Proxy
