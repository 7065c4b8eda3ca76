import Drachtio.Proxy.ProxyCore
import Drachtio.Theorems.Proxy.Client

/-! The state of a client transaction after each of its member functions, in equations, and whether it was given up. -/

namespace Drachtio.Proxy.ClientTransaction

variable {k : Settings} {env : Env} {req : Request} {r : Response} {c : ClientTransaction}

/-- Calling, trying or proceeding. -/
def isActive (c : ClientTransaction) : Bool :=
  c.state == .calling || c.state == .trying || c.state == .proceeding

/-- Completed or terminated. -/
def isDone (c : ClientTransaction) : Bool := c.state == .completed || c.state == .terminated

theorem isActive_iff : c.isActive = true ↔ c.state = .calling ∨ c.state = .trying ∨ c.state = .proceeding := by
  simp [isActive, or_assoc]

theorem isDone_iff : c.isDone = true ↔ c.state = .completed ∨ c.state = .terminated := by
  simp [isDone]

theorem active_of_called (h : c.isCallingOrProceeding = true) : c.isActive = true := by
  have hst : c.state = .calling ∨ c.state = .proceeding := by simpa [isCallingOrProceeding] using h
  exact isActive_iff.mpr (hst.imp_right Or.inr)

/-- A transport is found for the target, and sending on it fails: the request counts as sent. -/
def failsToSend (env : Env) (c : ClientTransaction) : Bool := env.hasTransport c.id && !env.sendRequest c.id

theorem failsToSend_iff : c.failsToSend env = true ↔ env.hasTransport c.id = true ∧ env.sendRequest c.id = false := by
  simp [failsToSend]

theorem processNewResponse_state : (c.processNewResponse k r).1.1.state =
    if 100 ≤ r.status ∧ r.status ≤ 199 then .proceeding
    else if 200 ≤ r.status ∧ r.status ≤ 299 then if c.isInviteTransaction then .terminated else .completed
    else if 300 ≤ r.status then .completed else c.state := by
  have hi : ({ c with sipStatus := r.status } : ClientTransaction).isInviteTransaction = c.isInviteTransaction := rfl
  unfold processNewResponse
  dsimp only
  rw [hi]
  split
  · split
    · exact setState_state
    · split <;> exact setState_state
  · split
    · split <;> exact setState_state
    · split
      · split <;> exact setState_state
      · rfl

theorem processResponse_state (hm : c.method = r.method) : (c.processResponse k env r).1.1.state =
    if c.isLate r then .proceeding
    else if c.state = .terminated ∨ c.state = .completed ∧ 200 ≤ r.status then c.state
    else (c.processNewResponse k r).1.1.state := by
  by_cases hl : c.isLate r = true
  · rw [if_pos hl, (processResponse_late hl).1]
  · rw [if_neg hl]
    unfold processResponse
    by_cases ht : c.state = .terminated
    · rw [if_pos ht, if_pos (Or.inl ht)]
    · rw [if_neg ht, if_neg hl, if_pos hm]
      by_cases hc : c.state = .completed ∧ 200 ≤ r.status
      · rw [if_pos hc, if_pos (Or.inr hc)]
      · rw [if_neg hc, if_neg (by tauto)]

theorem forwardRequest_launch_state (h : c.state = .notStarted) : (c.forwardRequest k env req).1.1.state =
    if c.failsToSend env then .terminated else if req.method = .invite then .calling else .trying := by
  rw [(forwardRequest_launch_eq h).1]
  by_cases hf : env.hasTransport c.id = true ∧ env.sendRequest c.id = false
  · rw [if_pos hf, if_pos (failsToSend_iff.mpr hf)]
    exact setState_state
  · rw [if_neg hf, if_neg (failsToSend_iff.not.mpr hf), begun_state]

theorem forwardRequest_state (h : c.state ≠ .notStarted) : (c.forwardRequest k env req).1.1.state =
    if c.failsToSend env then .terminated else c.state := by
  unfold forwardRequest
  simp only [h, if_false]
  cases ht : env.hasTransport c.id <;> cases hs : env.sendRequest c.id <;> simp [failsToSend, ht, hs]

theorem retransmitRequest_state (h : c.state ≠ .notStarted) : (c.retransmitRequest k env req).1.state =
    if c.failsToSend env then .terminated else c.state := by
  have hsent : ({ c with durationTimerA := 2 * c.durationTimerA }.forwardRequest k env req).1.1.state =
      if c.failsToSend env then .terminated else c.state := forwardRequest_state h
  unfold retransmitRequest
  dsimp only
  split
  · split <;> exact hsent
  · exact hsent

theorem cancelRequest_state : (c.cancelRequest k env).1.state = match c.state with
    | .calling => .completed
    | .notStarted => .terminated
    | n => n := by
  rcases cancelRequest_cases k env c with ⟨hs, he⟩ | ⟨hs, he⟩ | ⟨hs, he⟩ | ⟨hs, he⟩
  · rw [he, hs]
    exact setState_state
  · rw [he, hs]
    exact setState_state
  · rw [he, hs]
    split <;> exact hs
  · rw [he]
    rcases hs with hs | hs | hs <;> rw [hs] <;> exact hs

theorem timerFires_state (h : c.state ≠ .notStarted) (t : TimerName) : (c.timerFires k env req t).1.state = match t with
    | .timerA | .timerE => if c.failsToSend env then .terminated else c.state
    | .timerProvisional => .completed
    | _ => .terminated := by
  have he : ∀ t, (c.expire t).state ≠ .notStarted := fun t => by rwa [expire_state]
  have hf : ∀ t, (c.expire t).failsToSend env = c.failsToSend env := fun t => by cases t <;> rfl
  cases t with
  | timerA => exact (retransmitRequest_state (he _)).trans (by rw [hf, expire_state])
  | timerE => exact (retransmitRequest_state (he _)).trans (by rw [hf, expire_state])
  | _ => exact setState_state

/-! ### Giving up

m_canceled is never taken back. -/

theorem cancelRequest_canceled (h : c.canceled = true) : (c.cancelRequest k env).1.canceled = true := by
  rcases cancelRequest_cases k env c with ⟨-, he⟩ | ⟨-, he⟩ | ⟨-, he⟩ | ⟨-, he⟩
  · rw [he]
  · rw [he, setState_canceled]
    exact h
  · rw [he]
    split
    · rfl
    · exact h
  · rw [he]
    exact h

theorem processNewResponse_canceled : (c.processNewResponse k r).1.1.canceled = c.canceled := by
  unfold processNewResponse
  dsimp only
  split
  · split
    · exact setState_canceled
    · split <;> exact setState_canceled
  · split
    · split <;> exact setState_canceled
    · split
      · split <;> exact setState_canceled
      · rfl

theorem processResponse_canceled (h : c.canceled = true) : (c.processResponse k env r).1.1.canceled = true := by
  unfold processResponse
  split
  · exact h
  · split
    · exact cancelRequest_canceled (by rw [setState_canceled]; exact h)
    · split
      · split
        · exact h
        · rw [processNewResponse_canceled]
          exact h
      · exact h

theorem forwardRequest_canceled (h : c.state ≠ .notStarted) : (c.forwardRequest k env req).1.1.canceled = c.canceled := by
  unfold forwardRequest
  simp only [h, if_false]
  split
  · split
    · rfl
    · exact setState_canceled
  · rfl

theorem retransmitRequest_canceled (h : c.state ≠ .notStarted) : (c.retransmitRequest k env req).1.canceled = c.canceled := by
  have hsent : ({ c with durationTimerA := 2 * c.durationTimerA }.forwardRequest k env req).1.1.canceled = c.canceled :=
    forwardRequest_canceled h
  unfold retransmitRequest
  dsimp only
  split
  · split <;> exact hsent
  · exact hsent

end Drachtio.Proxy.ClientTransaction
