import Drachtio.Proxy.ClientTransaction

/-! What the member functions of a client transaction keep and change, one lemma for each field that later
    proofs read. -/

namespace Drachtio.Proxy.ClientTransaction

variable {k : Settings} {env : Env} {req : Request} {r : Response} {c : ClientTransaction} {n : TransactionState}

/-! ### setState -/

/-- Only the state and the timers change. -/
theorem setState_frame : (c.setState k n).1.id = c.id ∧ (c.setState k n).1.target = c.target ∧
    (c.setState k n).1.branch = c.branch ∧ (c.setState k n).1.branchPrack = c.branchPrack ∧
    (c.setState k n).1.method = c.method ∧ (c.setState k n).1.sipStatus = c.sipStatus ∧
    (c.setState k n).1.canceled = c.canceled ∧ (c.setState k n).1.msgFinal = c.msgFinal ∧
    (c.setState k n).1.rseq = c.rseq ∧ (c.setState k n).1.transmitCount = c.transmitCount := by
  unfold setState
  split
  · simp
  · dsimp only
    split <;> cases n <;> simp [enterInvite, enterNonInvite]

@[simp] theorem setState_id : (c.setState k n).1.id = c.id := setState_frame.1
@[simp] theorem setState_target : (c.setState k n).1.target = c.target := setState_frame.2.1
@[simp] theorem setState_branch : (c.setState k n).1.branch = c.branch := setState_frame.2.2.1
@[simp] theorem setState_method : (c.setState k n).1.method = c.method := setState_frame.2.2.2.2.1
@[simp] theorem setState_sipStatus : (c.setState k n).1.sipStatus = c.sipStatus := setState_frame.2.2.2.2.2.1
@[simp] theorem setState_canceled : (c.setState k n).1.canceled = c.canceled := setState_frame.2.2.2.2.2.2.1
@[simp] theorem setState_msgFinal : (c.setState k n).1.msgFinal = c.msgFinal := setState_frame.2.2.2.2.2.2.2.1
@[simp] theorem setState_rseq : (c.setState k n).1.rseq = c.rseq := setState_frame.2.2.2.2.2.2.2.2.1

@[simp] theorem setState_state : (c.setState k n).1.state = n := by
  unfold setState
  split
  · rename_i h
    exact h.symm
  · dsimp only
    split <;> cases n <;> simp [enterInvite, enterNonInvite]

@[simp] theorem setState_isInvite : (c.setState k n).1.isInviteTransaction = c.isInviteTransaction := by
  simp [isInviteTransaction]

/-- Entering the current state does nothing. -/
theorem setState_self (h : c.state = n) : c.setState k n = (c, []) := by
  simp [setState, h]

/-! ### Timers, one slot at a time -/

/-- What `setState` does to the slot of timer `t` on entering state `n`. -/
def enter (k : Settings) (invite : Bool) (n : TransactionState) (t : TimerName) (x : Timer) : Timer :=
  match invite, n, t with
  | true, .calling, .timerA | true, .calling, .timerB | true, .calling, .timerC => x.addTimer
  | true, .calling, .timerProvisional => if 0 < k.provisionalTimeout then x.addTimer else x
  | true, .proceeding, .timerA | true, .proceeding, .timerB | true, .proceeding, .timerProvisional => x.removeTimer
  | true, .completed, .timerD => x.removeTimer.addTimer
  | true, .completed, .timerA | true, .completed, .timerB | true, .completed, .timerC
  | true, .completed, .timerProvisional => x.removeTimer
  | true, .terminated, .timerA | true, .terminated, .timerB | true, .terminated, .timerC
  | true, .terminated, .timerProvisional => x.removeTimer
  | false, .trying, .timerE | false, .trying, .timerF => x.addTimer
  | false, .proceeding, .timerE => x.removeTimer
  | false, .completed, .timerE | false, .completed, .timerF => x.removeTimer
  | false, .completed, .timerK => x.addTimer
  | false, .terminated, .timerE | false, .terminated, .timerF | false, .terminated, .timerK => x.removeTimer
  | _, _, _ => x

theorem setState_timer (h : n ≠ c.state) (t : TimerName) :
    (c.setState k n).1.timer t = enter k c.isInviteTransaction n t (c.timer t) := by
  unfold setState
  rw [if_neg h]
  cases hi : c.isInviteTransaction <;> cases n <;> cases t <;> rfl

theorem expire_timer (t u : TimerName) : (c.expire t).timer u = if u = t then (c.timer u).expire else c.timer u := by
  cases t <;> cases u <;> rfl

theorem setState_timerC_proceeding : (c.setState k .proceeding).1.timerC = c.timerC := by
  by_cases h : TransactionState.proceeding = c.state
  · rw [setState_self h.symm]
  · have ht := setState_timer (k := k) h .timerC
    cases hi : c.isInviteTransaction <;> rw [hi] at ht <;> exact ht

/-- The state in which the callback of a timer expects its transaction. -/
def firesIn : TimerName → TransactionState → Bool
  | .timerA, n | .timerB, n | .timerProvisional, n => n == .calling
  | .timerC, n => n == .proceeding || n == .calling
  | .timerD, n | .timerK, n => n == .completed
  | .timerE, n => n == .trying
  | .timerF, _ => true

/-! ### cancelRequest -/

/-- Without the timers that `cancelRequest` removes. -/
def disarmed (c : ClientTransaction) : ClientTransaction :=
  { c with
    timerA := c.timerA.removeTimer
    timerB := c.timerB.removeTimer
    timerC := c.timerC.removeTimer.removeTimer.removeTimer.removeTimer }

theorem disarmed_timer (t : TimerName) : c.disarmed.timer t = match t with
    | .timerA | .timerB => (c.timer t).removeTimer
    | .timerC => (c.timer t).removeTimer.removeTimer.removeTimer.removeTimer
    | _ => c.timer t := by
  cases t <;> rfl

theorem cancelRequest_cases (k : Settings) (env : Env) (c : ClientTransaction) :
    (c.state = .calling ∧ c.cancelRequest k env =
      ({ (c.disarmed.setState k .completed).1 with canceled := true }, (c.disarmed.setState k .completed).2)) ∨
    (c.state = .notStarted ∧ c.cancelRequest k env = c.disarmed.setState k .terminated) ∨
    (c.state = .proceeding ∧ c.cancelRequest k env =
      if env.sendCancel c.id then ({ c.disarmed with canceled := true }, [.sendCancel c.id]) else (c.disarmed, [])) ∨
    (c.state = .trying ∨ c.state = .completed ∨ c.state = .terminated) ∧ c.cancelRequest k env = (c.disarmed, []) := by
  unfold cancelRequest
  cases hs : c.state <;> simp [disarmed, hs]

/-! ### What stays

The identity, the target, the branch and the method are set by the constructor and by a launch. -/

structure Kept (c d : ClientTransaction) : Prop where
  id : d.id = c.id
  target : d.target = c.target
  branch : d.branch = c.branch
  method : d.method = c.method

theorem Kept.trans {d e : ClientTransaction} (h : c.Kept d) (h' : d.Kept e) : c.Kept e :=
  ⟨h'.id.trans h.id, h'.target.trans h.target, h'.branch.trans h.branch, h'.method.trans h.method⟩

theorem setState_kept : c.Kept (c.setState k n).1 :=
  ⟨setState_id, setState_target, setState_branch, setState_method⟩

theorem expire_kept {t : TimerName} : c.Kept (c.expire t) := by
  cases t <;> exact ⟨rfl, rfl, rfl, rfl⟩

theorem forwardRequest_kept (h : c.state ≠ .notStarted) : c.Kept (c.forwardRequest k env req).1.1 := by
  unfold forwardRequest
  simp only [h, if_false]
  split
  · split
    · exact ⟨rfl, rfl, rfl, rfl⟩
    · exact ⟨setState_id, setState_target, setState_branch, setState_method⟩
  · exact ⟨rfl, rfl, rfl, rfl⟩

theorem retransmitRequest_kept (h : c.state ≠ .notStarted) : c.Kept (c.retransmitRequest k env req).1 := by
  have hlate : Kept { c with durationTimerA := 2 * c.durationTimerA }
      ({ c with durationTimerA := 2 * c.durationTimerA }.forwardRequest k env req).1.1 := forwardRequest_kept h
  obtain ⟨h1, h2, h3, h4⟩ := hlate
  unfold retransmitRequest
  dsimp only
  split
  · split <;> exact ⟨h1, h2, h3, h4⟩
  · exact ⟨h1, h2, h3, h4⟩

theorem cancelRequest_kept : c.Kept (c.cancelRequest k env).1 := by
  rcases cancelRequest_cases k env c with ⟨-, he⟩ | ⟨-, he⟩ | ⟨-, he⟩ | ⟨-, he⟩ <;> rw [he]
  · exact ⟨setState_id, setState_target, setState_branch, setState_method⟩
  · exact ⟨setState_id, setState_target, setState_branch, setState_method⟩
  · split <;> exact ⟨rfl, rfl, rfl, rfl⟩
  · exact ⟨rfl, rfl, rfl, rfl⟩

theorem processNewResponse_kept : c.Kept (c.processNewResponse k r).1.1 := by
  have hm : ∀ n, c.Kept ({ c with sipStatus := r.status }.setState k n).1 := fun _ =>
    ⟨setState_id, setState_target, setState_branch, setState_method⟩
  unfold processNewResponse
  dsimp only
  split
  · obtain ⟨h1, h2, h3, h4⟩ := hm .proceeding
    split
    · exact hm _
    · split <;> exact ⟨h1, h2, h3, h4⟩
  · split
    · split
      · obtain ⟨h1, h2, h3, h4⟩ := hm .terminated
        exact ⟨h1, h2, h3, h4⟩
      · exact hm _
    · split
      · obtain ⟨h1, h2, h3, h4⟩ := hm .completed
        split <;> exact ⟨h1, h2, h3, h4⟩
      · exact ⟨rfl, rfl, rfl, rfl⟩

theorem processResponse_kept : c.Kept (c.processResponse k env r).1.1 := by
  unfold processResponse
  split
  · exact ⟨rfl, rfl, rfl, rfl⟩
  · split
    · exact setState_kept.trans cancelRequest_kept
    · split
      · split
        · exact ⟨rfl, rfl, rfl, rfl⟩
        · exact processNewResponse_kept
      · exact ⟨rfl, rfl, rfl, rfl⟩

theorem forwardPrack_kept {rack : UInt32} : c.Kept (c.forwardPrack env rack).1 := ⟨rfl, rfl, rfl, rfl⟩

theorem timerFires_kept (h : c.state ≠ .notStarted) (t : TimerName) : c.Kept (c.timerFires k env req t).1 := by
  have he : ∀ t, (c.expire t).state ≠ .notStarted := fun t => by cases t <;> exact h
  cases t with
  | timerA => exact expire_kept.trans (retransmitRequest_kept (he _))
  | timerE => exact expire_kept.trans (retransmitRequest_kept (he _))
  | timerC =>
    simp only [timerFires]
    split
    · exact (expire_kept.trans cancelRequest_kept).trans setState_kept
    · exact expire_kept.trans setState_kept
  | _ => exact expire_kept.trans setState_kept

@[simp] theorem cancelRequest_id : (c.cancelRequest k env).1.id = c.id := cancelRequest_kept.id
@[simp] theorem processResponse_id : (c.processResponse k env r).1.1.id = c.id := processResponse_kept.id
@[simp] theorem expire_id {t : TimerName} : (c.expire t).id = c.id := expire_kept.id
@[simp] theorem expire_target {t : TimerName} : (c.expire t).target = c.target := expire_kept.target
@[simp] theorem forwardPrack_id {rack : UInt32} : (c.forwardPrack env rack).1.id = c.id := rfl

@[simp] theorem forwardRequest_id : (c.forwardRequest k env req).1.1.id = c.id := by
  unfold forwardRequest
  dsimp only
  split <;> split <;> (try split) <;> simp

@[simp] theorem retransmitRequest_id : (c.retransmitRequest k env req).1.id = c.id := by
  unfold retransmitRequest
  dsimp only
  split
  · split <;> simp
  · simp

@[simp] theorem timerFires_id {t : TimerName} : (c.timerFires k env req t).1.id = c.id := by
  cases t <;> simp only [timerFires, setState_id, retransmitRequest_id, expire_id]
  split <;> simp

@[simp] theorem expire_isInvite {t : TimerName} : (c.expire t).isInviteTransaction = c.isInviteTransaction := by
  cases t <;> rfl

@[simp] theorem expire_state {t : TimerName} : (c.expire t).state = c.state := by cases t <;> rfl

@[simp] theorem forwardPrack_timer {rack : UInt32} (t : TimerName) :
    (c.forwardPrack env rack).1.timer t = c.timer t := by cases t <;> rfl

/-! ### Starting

Only `forwardRequest` starts a transaction, and nothing takes one back to `notStarted`. -/

theorem cancelRequest_started (h : c.state ≠ .notStarted) : (c.cancelRequest k env).1.state ≠ .notStarted := by
  rcases cancelRequest_cases k env c with ⟨-, he⟩ | ⟨-, he⟩ | ⟨-, he⟩ | ⟨-, he⟩ <;> rw [he]
  · simp
  · simp
  · split <;> exact h
  · exact h

theorem processNewResponse_started (h : c.state ≠ .notStarted) :
    (c.processNewResponse k r).1.1.state ≠ .notStarted := by
  unfold processNewResponse
  dsimp only
  split
  · split
    · simp
    · split <;> simp
  · split
    · split <;> simp
    · split
      · split <;> simp
      · exact h

theorem processResponse_started (h : c.state ≠ .notStarted) :
    (c.processResponse k env r).1.1.state ≠ .notStarted := by
  unfold processResponse
  split
  · exact h
  · split
    · exact cancelRequest_started (by simp)
    · split
      · split
        · exact h
        · exact processNewResponse_started h
      · exact h

theorem forwardRequest_started (h : c.state ≠ .notStarted) :
    (c.forwardRequest k env req).1.1.state ≠ .notStarted := by
  unfold forwardRequest
  simp only [h, if_false]
  split
  · split
    · exact h
    · simp
  · exact h

/-- A transaction as a launch leaves it before the request is sent. -/
def begun (k : Settings) (req : Request) (c : ClientTransaction) : ClientTransaction :=
  ({ c with transmitCount := c.transmitCount + 1, branch := some c.id, method := req.method }.setState k
    (if req.method = Method.invite then .calling else .trying)).1

@[simp] theorem begun_id : (c.begun k req).id = c.id := setState_id
@[simp] theorem begun_branch : (c.begun k req).branch = some c.id := setState_branch
@[simp] theorem begun_method : (c.begun k req).method = req.method := setState_method
@[simp] theorem begun_sipStatus : (c.begun k req).sipStatus = c.sipStatus := setState_sipStatus
@[simp] theorem begun_canceled : (c.begun k req).canceled = c.canceled := setState_canceled
@[simp] theorem begun_state : (c.begun k req).state = if req.method = .invite then .calling else .trying := setState_state

theorem begun_started : (c.begun k req).state ≠ .notStarted := by
  rw [begun_state]
  split <;> simp

theorem begun_timer (h : c.state = .notStarted) (t : TimerName) : (c.begun k req).timer t =
    enter k (c.begun k req).isInviteTransaction (c.begun k req).state t (c.timer t) := by
  have hne : (if req.method = Method.invite then TransactionState.calling else .trying) ≠ c.state := by
    rw [h]
    split <;> simp
  have ht : ({ c with transmitCount := c.transmitCount + 1, branch := some c.id, method := req.method } :
      ClientTransaction).timer t = c.timer t := by cases t <;> rfl
  unfold begun
  rw [setState_timer (by exact hne), setState_isInvite, setState_state, ht]

/-- What a launch does: it stops at once when the request cannot be sent, and counts as sent when there is a
    transport. -/
theorem forwardRequest_launch_eq (h : c.state = .notStarted) :
    (c.forwardRequest k env req).1.1 = (if env.hasTransport c.id = true ∧ env.sendRequest c.id = false
      then { ((c.begun k req).setState k .terminated).1 with sipStatus := 503 } else c.begun k req) ∧
    (c.forwardRequest k env req).2 = env.hasTransport c.id := by
  unfold forwardRequest begun
  simp only [h, if_true, isInviteTransaction, beq_iff_eq]
  cases ht : env.hasTransport c.id <;> cases hsend : env.sendRequest c.id <;> simp

theorem forwardRequest_launch (h : c.state = .notStarted) : (c.forwardRequest k env req).1.1.branch = some c.id ∧
    (c.forwardRequest k env req).1.1.method = req.method ∧ (c.forwardRequest k env req).1.1.state ≠ .notStarted := by
  rw [(forwardRequest_launch_eq h).1]
  split
  · simp
  · exact ⟨begun_branch, begun_method, begun_started⟩

/-- A started transaction whose request can be sent, or for which there is no transport, is only counted. -/
theorem forwardRequest_sent (h : c.state ≠ .notStarted) (hsend : env.hasTransport c.id = true → env.sendRequest c.id = true) :
    (c.forwardRequest k env req).1.1 = { c with transmitCount := c.transmitCount + 1 } ∧
      (c.forwardRequest k env req).2 = env.hasTransport c.id := by
  unfold forwardRequest
  simp only [h, if_false]
  cases ht : env.hasTransport c.id with
  | false => simp
  | true => simp [hsend ht]

theorem retransmitRequest_started (h : c.state ≠ .notStarted) :
    (c.retransmitRequest k env req).1.state ≠ .notStarted := by
  have hf : ({ c with durationTimerA := 2 * c.durationTimerA }.forwardRequest k env req).1.1.state ≠ .notStarted :=
    forwardRequest_started h
  unfold retransmitRequest
  dsimp only
  split
  · split <;> exact hf
  · exact hf

theorem timerFires_started (h : c.state ≠ .notStarted) (t : TimerName) :
    (c.timerFires k env req t).1.state ≠ .notStarted := by
  have he : ∀ t, (c.expire t).state ≠ .notStarted := fun t => by rwa [expire_state]
  cases t with
  | timerA => exact retransmitRequest_started (he _)
  | timerE => exact retransmitRequest_started (he _)
  | _ => simp [timerFires]

/-! ### The final response that is kept -/

@[simp] theorem expire_msgFinal {t : TimerName} : (c.expire t).msgFinal = c.msgFinal := by cases t <;> rfl

@[simp] theorem cancelRequest_msgFinal : (c.cancelRequest k env).1.msgFinal = c.msgFinal := by
  have hd : c.disarmed.msgFinal = c.msgFinal := rfl
  rcases cancelRequest_cases k env c with ⟨-, he⟩ | ⟨-, he⟩ | ⟨-, he⟩ | ⟨-, he⟩ <;> rw [he]
  · exact setState_msgFinal.trans hd
  · exact setState_msgFinal.trans hd
  · split <;> exact hd
  · exact hd

@[simp] theorem forwardRequest_msgFinal : (c.forwardRequest k env req).1.1.msgFinal = c.msgFinal := by
  unfold forwardRequest
  dsimp only
  split <;> split <;> (try split) <;> simp

@[simp] theorem retransmitRequest_msgFinal : (c.retransmitRequest k env req).1.msgFinal = c.msgFinal := by
  unfold retransmitRequest
  dsimp only
  split
  · split <;> simp
  · simp

@[simp] theorem timerFires_msgFinal {t : TimerName} : (c.timerFires k env req t).1.msgFinal = c.msgFinal := by
  cases t <;> simp only [timerFires, setState_msgFinal, retransmitRequest_msgFinal, expire_msgFinal]
  split <;> simp

theorem processNewResponse_msgFinal : (c.processNewResponse k r).1.1.msgFinal =
    if 300 ≤ r.status then some r else c.msgFinal := by
  unfold processNewResponse
  dsimp only
  split
  · rw [if_neg (show ¬300 ≤ r.status by omega)]
    split
    · simp
    · split <;> simp
  · split
    · rw [if_neg (show ¬300 ≤ r.status by omega)]
      split <;> simp
    · split
      · split <;> rfl
      · rfl

theorem processResponse_msgFinal : (c.processResponse k env r).1.1.msgFinal = c.msgFinal ∨
    (c.processResponse k env r).1.1.msgFinal = some r ∧ 300 ≤ r.status := by
  unfold processResponse
  split
  · exact Or.inl rfl
  · split
    · exact Or.inl (by simp)
    · split
      · split
        · exact Or.inl rfl
        · rw [processNewResponse_msgFinal]
          split
          · rename_i h
            exact Or.inr ⟨rfl, h⟩
          · exact Or.inl rfl
      · exact Or.inl rfl

/-! ### What is written -/

section
variable {x : Output}

theorem mem_check {b : Bool} {a : Assertion} (h : x ∈ check b a) : x = .assertFailed a ∧ b = false := by
  unfold check at h
  split at h
  · simp at h
  · rename_i hb
    exact ⟨by simpa using h, by simpa using hb⟩

/-- Entering a later state than calling writes the change and nothing else. -/
theorem setState_outputs (h₁ : n ≠ .calling) (h₂ : n ≠ .trying) :
    (c.setState k n).2 = if n = c.state then [] else [.stateChange c.id c.state n] := by
  unfold setState
  split
  · rfl
  · dsimp only
    split <;> cases n <;> simp_all [enterInvite, enterNonInvite]

theorem mem_setState_later (h₁ : n ≠ .calling) (h₂ : n ≠ .trying) (h : x ∈ (c.setState k n).2) :
    x = .stateChange c.id c.state n ∧ c.state ≠ n := by
  rw [setState_outputs h₁ h₂] at h
  split at h
  · simp at h
  · rename_i hne
    exact ⟨List.mem_singleton.mp h, fun e => hne e.symm⟩

theorem mem_setState (h : x ∈ (c.setState k n).2) :
    (x = .stateChange c.id c.state n ∧ c.state ≠ n) ∨
      ∃ t, x = .assertFailed (.timerUnset t) ∧ (c.timer t).handle = true := by
  unfold setState at h
  split at h
  · simp at h
  · rename_i hne
    dsimp only at h
    rcases List.mem_cons.mp h with rfl | h
    · exact Or.inl ⟨rfl, fun e => hne e.symm⟩
    · refine Or.inr ?_
      split at h <;> cases n <;> simp only [enterInvite, enterNonInvite, List.mem_append, List.not_mem_nil] at h
      · rcases h with (h | h) | h <;> exact ⟨_, (mem_check h).1, by simpa [timer] using (mem_check h).2⟩
      · rcases h with h | h <;> exact ⟨_, (mem_check h).1, by simpa [timer] using (mem_check h).2⟩

theorem mem_cancelRequest (h : x ∈ (c.cancelRequest k env).2) :
    (x = .stateChange c.id .calling .completed ∧ c.state = .calling) ∨
      (x = .stateChange c.id .notStarted .terminated ∧ c.state = .notStarted) ∨
      (x = .sendCancel c.id ∧ c.state = .proceeding) := by
  have hst : c.disarmed.state = c.state := rfl
  have hid : c.disarmed.id = c.id := rfl
  rcases cancelRequest_cases k env c with ⟨hs, he⟩ | ⟨hs, he⟩ | ⟨hs, he⟩ | ⟨-, he⟩ <;> rw [he] at h
  · obtain ⟨hx, -⟩ := mem_setState_later (by simp) (by simp) h
    exact Or.inl ⟨by rw [hx, hid, hst, hs], hs⟩
  · obtain ⟨hx, -⟩ := mem_setState_later (by simp) (by simp) h
    exact Or.inr (Or.inl ⟨by rw [hx, hid, hst, hs], hs⟩)
  · split at h
    · exact Or.inr (Or.inr ⟨List.mem_singleton.mp h, hs⟩)
    · simp at h
  · simp at h

/-- A started transaction sends its request, or stops. -/
theorem mem_forwardRequest (hs : c.state ≠ .notStarted) (h : x ∈ (c.forwardRequest k env req).1.2) :
    (x = .stateChange c.id c.state .terminated ∧ c.state ≠ .terminated) ∨
      ∃ m, x = .sendRequest c.id req.method c.target m := by
  unfold forwardRequest at h
  simp only [hs, if_false] at h
  split at h
  · split at h
    · simp only [List.nil_append, List.mem_singleton] at h
      exact Or.inr ⟨_, h⟩
    · simp only [List.nil_append] at h
      obtain ⟨hx, hne⟩ := mem_setState_later (by simp) (by simp) h
      exact Or.inl ⟨hx, hne⟩
  · simp at h

/-- What a launch writes: failed asserts, the changes of state and the request. -/
theorem mem_forwardRequest_launch (hs : c.state = .notStarted) (h : x ∈ (c.forwardRequest k env req).1.2) :
    (∃ a, x = .assertFailed a ∧ (a = .firstTransmit ∨ ∃ t, a = .timerUnset t ∧ (c.timer t).handle = true)) ∨
      (∃ n, (n = .calling ∨ n = .trying) ∧
        (x = .stateChange c.id .notStarted n ∨ x = .stateChange c.id n .terminated)) ∨
      ∃ m, x = .sendRequest c.id req.method c.target m := by
  have first : ∀ {b : Bool} {d : ClientTransaction} {n : TransactionState},
      x ∈ check b .firstTransmit ++ (d.setState k n).2 → d.id = c.id → d.state = .notStarted →
      (∀ t, d.timer t = c.timer t) →
      (∃ a, x = .assertFailed a ∧ (a = .firstTransmit ∨ ∃ t, a = .timerUnset t ∧ (c.timer t).handle = true)) ∨
        x = .stateChange c.id .notStarted n := fun hx hid hst ht => by
    rcases List.mem_append.mp hx with hx | hx
    · exact Or.inl ⟨_, (mem_check hx).1, Or.inl rfl⟩
    · rcases mem_setState hx with ⟨hx, -⟩ | ⟨t, hx, hset⟩
      · exact Or.inr (by rw [hx, hid, hst])
      · exact Or.inl ⟨_, hx, Or.inr ⟨t, rfl, ht t ▸ hset⟩⟩
  have hn : ∀ b : Bool, (if b = true then TransactionState.calling else .trying) = .calling ∨
      (if b = true then TransactionState.calling else .trying) = .trying := by decide
  unfold forwardRequest at h
  simp only [hs, if_true] at h
  split at h
  · split at h
    · rcases List.mem_append.mp h with h | h
      · exact (first h rfl rfl (by rintro (_ | _) <;> rfl)).imp_right fun hx => Or.inl ⟨_, hn _, Or.inl hx⟩
      · exact Or.inr (Or.inr ⟨_, List.mem_singleton.mp h⟩)
    · rcases List.mem_append.mp h with h | h
      · exact (first h rfl rfl (by rintro (_ | _) <;> rfl)).imp_right fun hx => Or.inl ⟨_, hn _, Or.inl hx⟩
      · obtain ⟨hx, -⟩ := mem_setState_later (by simp) (by simp) h
        exact Or.inr (Or.inl ⟨_, hn _, Or.inr (by rw [hx, setState_id, setState_state])⟩)
  · exact (first h rfl rfl (by rintro (_ | _) <;> rfl)).imp_right fun hx => Or.inl ⟨_, hn _, Or.inl hx⟩

theorem retransmitRequest_outputs : (c.retransmitRequest k env req).2 =
    ({ c with durationTimerA := 2 * c.durationTimerA }.forwardRequest k env req).1.2 := by
  unfold retransmitRequest
  dsimp only
  split <;> rfl

theorem mem_retransmitRequest (hs : c.state ≠ .notStarted) (h : x ∈ (c.retransmitRequest k env req).2) :
    (x = .stateChange c.id c.state .terminated ∧ c.state ≠ .terminated) ∨
      ∃ m, x = .sendRequest c.id req.method c.target m := by
  rw [retransmitRequest_outputs] at h
  obtain ⟨hx, hne⟩ | ⟨m, hx⟩ := mem_forwardRequest (c := { c with durationTimerA := 2 * c.durationTimerA }) hs h
  · exact Or.inl ⟨hx, hne⟩
  · exact Or.inr ⟨m, hx⟩

theorem mem_processNewResponse (h : x ∈ (c.processNewResponse k r).1.2) :
    (∃ n, x = .stateChange c.id c.state n ∧ c.state ≠ n ∧
      ((n = .proceeding ∧ 100 ≤ r.status ∧ r.status ≤ 199) ∨ (n = .completed ∨ n = .terminated) ∧ 200 ≤ r.status)) ∨
      (x = .assertFailed .timerCSet ∧ 101 ≤ r.status ∧ r.status ≤ 199 ∧ c.isInviteTransaction = true ∧
        c.timerC.handle = false) ∨
      (x = .sendAck c.id ∧ 300 ≤ r.status) := by
  have moved : ∀ {n : TransactionState}, n ≠ .calling → n ≠ .trying →
      x ∈ ({ c with sipStatus := r.status }.setState k n).2 → x = .stateChange c.id c.state n ∧ c.state ≠ n :=
    mem_setState_later
  unfold processNewResponse at h
  dsimp only at h
  split at h
  · rename_i hst
    have hmove : x ∈ ({ c with sipStatus := r.status }.setState k .proceeding).2 →
        ∃ n, x = .stateChange c.id c.state n ∧ c.state ≠ n ∧ ((n = .proceeding ∧ 100 ≤ r.status ∧ r.status ≤ 199) ∨
          (n = .completed ∨ n = .terminated) ∧ 200 ≤ r.status) := fun hx =>
      ⟨_, (moved (by simp) (by simp) hx).1, (moved (by simp) (by simp) hx).2, Or.inl ⟨rfl, hst⟩⟩
    split at h
    · exact Or.inl (hmove h)
    · rename_i h100
      split at h
      · rename_i hi
        rcases List.mem_append.mp h with h | h
        · exact Or.inl (hmove h)
        · refine Or.inr (Or.inl ⟨(mem_check h).1, by omega, hst.2, hi, ?_⟩)
          rw [← (mem_check h).2, setState_timerC_proceeding]
      · exact Or.inl (hmove h)
  · split at h
    · rename_i hst
      split at h
      · obtain ⟨he, hs⟩ := moved (by simp) (by simp) h
        exact Or.inl ⟨_, he, hs, Or.inr ⟨Or.inr rfl, hst.1⟩⟩
      · obtain ⟨he, hs⟩ := moved (by simp) (by simp) h
        exact Or.inl ⟨_, he, hs, Or.inr ⟨Or.inl rfl, hst.1⟩⟩
    · split at h
      · rename_i hst
        have hmove : x ∈ ({ c with sipStatus := r.status }.setState k .completed).2 →
            ∃ n, x = .stateChange c.id c.state n ∧ c.state ≠ n ∧ ((n = .proceeding ∧ 100 ≤ r.status ∧ r.status ≤ 199) ∨
              (n = .completed ∨ n = .terminated) ∧ 200 ≤ r.status) := fun hx =>
          ⟨_, (moved (by simp) (by simp) hx).1, (moved (by simp) (by simp) hx).2, Or.inr ⟨Or.inl rfl, by omega⟩⟩
        split at h
        · rcases List.mem_append.mp h with h | h
          · exact Or.inl (hmove h)
          · exact Or.inr (Or.inr ⟨by simpa using h, hst⟩)
        · exact Or.inl (hmove h)
      · simp at h

/-- What the core has to do after a response that is new. -/
theorem processNewResponse_verdict : (c.processNewResponse k r).2 =
    if 101 ≤ r.status ∧ r.status ≤ 199 then .forward else if 200 ≤ r.status ∧ r.status ≤ 299 then .answered
    else if 300 ≤ r.status then .rejected else .discard := by
  unfold processNewResponse
  dsimp only
  by_cases h1 : 100 ≤ r.status ∧ r.status ≤ 199
  · rw [if_pos h1]
    by_cases h100 : r.status = 100
    · simp [h100]
    · rw [if_neg h100, if_pos (show 101 ≤ r.status ∧ r.status ≤ 199 by omega)]
      split <;> rfl
  · rw [if_neg h1, if_neg (show ¬(101 ≤ r.status ∧ r.status ≤ 199) by omega)]
    split
    · split <;> rfl
    · split
      · split <;> rfl
      · rfl

/-- A response that is not late, not repeated and answers the request. -/
theorem processResponse_new (hterm : c.state ≠ .terminated) (hlate : c.isLate r = false) (hm : c.method = r.method)
    (hrep : ¬(c.state = .completed ∧ 200 ≤ r.status)) : c.processResponse k env r = c.processNewResponse k r := by
  unfold processResponse
  rw [if_neg hterm, hlate, if_neg Bool.false_ne_true, if_pos hm, if_neg hrep]

/-- A response that is not discarded is a new one. -/
theorem processResponse_taken (h : (c.processResponse k env r).2 ≠ .discard) : c.state ≠ .terminated ∧
    c.isLate r = false ∧ ¬(c.state = .completed ∧ 200 ≤ r.status) ∧
    c.processResponse k env r = c.processNewResponse k r := by
  unfold processResponse at h ⊢
  split at h
  · exact absurd rfl h
  · rename_i hterm
    split at h
    · exact absurd rfl h
    · rename_i hlate
      split at h
      · rename_i hm
        split at h
        · exact absurd rfl h
        · rename_i hrep
          refine ⟨hterm, by simpa using hlate, hrep, ?_⟩
          rw [if_neg hterm, if_neg hlate, if_pos hm, if_neg hrep]
      · exact absurd rfl h

/-- A final response that is repeated. -/
theorem processResponse_repeated (hs : c.state = .completed) (hlate : c.isLate r = false) (hm : c.method = r.method)
    (hst : 200 ≤ r.status) :
    c.processResponse k env r = ((c, if c.isInviteTransaction then [.sendAck c.id] else []), .discard) := by
  unfold processResponse
  rw [if_neg (by simp [hs]), hlate, if_neg Bool.false_ne_true, if_pos hm, if_pos ⟨hs, hst⟩]

/-- A failure response to an INVITE is acknowledged. -/
theorem sendAck_mem_processNewResponse (hi : c.isInviteTransaction = true) (hst : 300 ≤ r.status) :
    .sendAck c.id ∈ (c.processNewResponse k r).1.2 := by
  have hi' : ({ c with sipStatus := r.status } : ClientTransaction).isInviteTransaction = true := hi
  unfold processNewResponse
  dsimp only
  rw [if_neg (by omega), if_neg (by omega), if_pos hst, if_pos hi']
  simp

/-- Canceling a transaction in proceeding does not move it. -/
theorem cancelRequest_proceeding (h : c.state = .proceeding) : (c.cancelRequest k env).1.state = .proceeding ∧
    (c.cancelRequest k env).2 = if env.sendCancel c.id then [.sendCancel c.id] else [] := by
  unfold cancelRequest
  simp only [h]
  split <;> exact ⟨rfl, rfl⟩

theorem isLate_iff : c.isLate r = true ↔ c.canceled = true ∧ c.state = .completed ∧ c.sipStatus = 0 ∧
    c.method = r.method ∧ c.isInviteTransaction = true := by
  simp [isLate, and_assoc]

/-- The first response of a transaction given up in calling: it is reopened and canceled. -/
theorem processResponse_late (h : c.isLate r = true) : (c.processResponse k env r).1.1.state = .proceeding ∧
    (c.processResponse k env r).1.2 = .lateResponse c.id :: .stateChange c.id .completed .proceeding ::
      (if env.sendCancel c.id then [.sendCancel c.id] else []) ∧ (c.processResponse k env r).2 = .discard := by
  have hs : c.state = .completed := (isLate_iff.mp h).2.1
  have hm : (c.setState k .proceeding).1.state = .proceeding := setState_state
  have hout : (c.setState k .proceeding).2 = [.stateChange c.id .completed .proceeding] := by
    rw [setState_outputs (by simp) (by simp), hs]
    rfl
  unfold processResponse
  rw [if_neg (by simp [hs]), if_pos h]
  refine ⟨(cancelRequest_proceeding hm).1, ?_, rfl⟩
  dsimp only
  rw [(cancelRequest_proceeding hm).2, hout, setState_id]
  rfl

theorem mem_processResponse (h : x ∈ (c.processResponse k env r).1.2) :
    (c.isLate r = true ∧ (x = .lateResponse c.id ∨ x = .stateChange c.id .completed .proceeding ∨
      x = .sendCancel c.id)) ∨ x = .sendAck c.id ∨
      (c.state ≠ .terminated ∧ c.isLate r = false ∧ ¬(c.state = .completed ∧ 200 ≤ r.status) ∧
        x ∈ (c.processNewResponse k r).1.2) := by
  by_cases hl : c.isLate r = true
  · rw [(processResponse_late hl).2.1] at h
    refine Or.inl ⟨hl, ?_⟩
    simp only [List.mem_cons] at h
    rcases h with h | h | h
    · exact Or.inl h
    · exact Or.inr (Or.inl h)
    · split at h
      · exact Or.inr (Or.inr (by simpa using h))
      · simp at h
  · unfold processResponse at h
    rw [if_neg hl] at h
    split at h
    · simp at h
    · rename_i hterm
      split at h
      · split at h
        · split at h
          · exact Or.inr (Or.inl (by simpa using h))
          · simp at h
        · rename_i hc
          exact Or.inr (Or.inr ⟨hterm, by simpa using hl, hc, h⟩)
      · simp at h

theorem mem_forwardPrack {rack : UInt32} (h : x ∈ (c.forwardPrack env rack).2) :
    x = .assertFailed .rseqSet ∨ x = .sendPrack c.id rack c.rseq := by
  rcases List.mem_append.mp h with h | h
  · exact Or.inl (mem_check h).1
  · split at h
    · exact Or.inr (by simpa using h)
    · simp at h

theorem mem_timerFires {t : TimerName} (hs : c.state ≠ .notStarted) (h : x ∈ (c.timerFires k env req t).2) :
    (x = .assertFailed (.firedIn t) ∧ firesIn t c.state = false) ∨
      (∃ n, x = .stateChange c.id c.state n ∧ c.state ≠ n ∧ (n = .terminated ∨ n = .completed ∧ t = .timerProvisional)) ∨
      (∃ m, x = .sendRequest c.id req.method c.target m) ∨
      (t = .timerC ∧ (x = .sendCancel c.id ∨ x = .generateResponse 408)) := by
  have he : ∀ t, (c.expire t).state ≠ .notStarted := fun t => by rwa [expire_state]
  have sent : ∀ t, x ∈ ((c.expire t).retransmitRequest k env req).2 →
      (∃ n, x = .stateChange c.id c.state n ∧ c.state ≠ n ∧ n = .terminated) ∨
        ∃ m, x = .sendRequest c.id req.method c.target m := fun t hx => by
    rcases mem_retransmitRequest (he t) hx with ⟨h1, h2⟩ | ⟨m, h1⟩
    · exact Or.inl ⟨_, by simpa using h1, by simpa using h2, rfl⟩
    · exact Or.inr ⟨m, by simpa using h1⟩
  have moved : ∀ {d : ClientTransaction} {n : TransactionState}, d.id = c.id → d.state = c.state → n ≠ .calling →
      n ≠ .trying → x ∈ (d.setState k n).2 → x = .stateChange c.id c.state n ∧ c.state ≠ n := by
    intro d n hid hst h₁ h₂ hx
    rw [← hid, ← hst]
    exact mem_setState_later h₁ h₂ hx
  have stop : ∀ {d : ClientTransaction}, d.id = c.id → d.state = c.state → x ∈ (d.setState k .terminated).2 →
      ∃ n, x = .stateChange c.id c.state n ∧ c.state ≠ n ∧ (n = .terminated ∨ n = .completed ∧ t = .timerProvisional) :=
    fun hid hst hx => ⟨_, (moved hid hst (by simp) (by simp) hx).1, (moved hid hst (by simp) (by simp) hx).2, Or.inl rfl⟩
  have failed : x ∈ check (firesIn t c.state) (.firedIn t) → x = .assertFailed (.firedIn t) ∧ firesIn t c.state = false :=
    mem_check
  cases t with
  -- The two retransmission timers: the request is sent again, or the transaction ends.
  | timerA | timerE =>
    simp only [timerFires, List.mem_append] at h
    rcases h with h | h
    · exact Or.inl (failed h)
    · rcases sent _ h with ⟨n, h1, h2, h3⟩ | h
      · exact Or.inr (Or.inl ⟨n, h1, h2, Or.inl h3⟩)
      · exact Or.inr (Or.inr (Or.inl h))
  | timerB =>
    simp only [timerFires, List.mem_append] at h
    exact h.elim (fun h => Or.inl (failed h)) fun h => Or.inr (Or.inl (stop expire_id expire_state h))
  | timerD =>
    simp only [timerFires, List.mem_append] at h
    exact h.elim (fun h => Or.inl (failed h)) fun h => Or.inr (Or.inl (stop expire_id expire_state h))
  | timerK =>
    simp only [timerFires, List.mem_append] at h
    exact h.elim (fun h => Or.inl (failed h)) fun h => Or.inr (Or.inl (stop expire_id expire_state h))
  | timerF =>
    simp only [timerFires] at h
    exact Or.inr (Or.inl (stop expire_id expire_state h))
  | timerProvisional =>
    simp only [timerFires, List.mem_append] at h
    rcases h with h | h
    · exact Or.inl (failed h)
    · have hm := moved expire_id expire_state (by simp) (by simp) h
      exact Or.inr (Or.inl ⟨_, hm.1, hm.2, Or.inr ⟨rfl, rfl⟩⟩)
  | timerC =>
    simp only [timerFires, List.mem_append, List.mem_cons] at h
    rcases h with (h | h) | h | h
    · exact Or.inl (failed h)
    · refine Or.inr (Or.inr (Or.inr ⟨rfl, Or.inl ?_⟩))
      split at h
      · rename_i hp
        rcases mem_cancelRequest h with ⟨-, hst⟩ | ⟨-, hst⟩ | ⟨hx, -⟩
        · simp [hp] at hst
        · simp [hp] at hst
        · simpa using hx
      · simp at h
    · exact Or.inr (Or.inr (Or.inr ⟨rfl, Or.inr h⟩))
    · refine Or.inr (Or.inl (stop ?_ ?_ h))
      · split <;> simp
      · split
        · rename_i hp
          rw [(cancelRequest_proceeding (by simpa using hp)).1, hp]
        · simp

end

end Drachtio.Proxy.ClientTransaction
