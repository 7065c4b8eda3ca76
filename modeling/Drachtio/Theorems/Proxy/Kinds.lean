import Drachtio.Theorems.Proxy.Search
import Drachtio.Theorems.Proxy.States

/-! INVITE transactions and the others: calling is a state of the former only and trying of the latter, and each has
    its own timers. -/

namespace Drachtio.Proxy
open ProxyCore

/-- The timers of an INVITE transaction. -/
def TimerName.ofInvite : TimerName → Bool
  | .timerA | .timerB | .timerC | .timerD | .timerProvisional => true
  | .timerE | .timerF | .timerK => false

/-- The state and the armed timers are those of the method. -/
structure OfKind (c : ClientTransaction) : Prop where
  timers : ∀ t, c.armed t = true → t.ofInvite = c.isInviteTransaction
  calling : c.state = .calling → c.isInviteTransaction = true
  trying : c.state = .trying → c.isInviteTransaction = false

section
variable {k : Settings} {env : Env} {req : Request} {r : Response} {c d : ClientTransaction} {n : TransactionState}

theorem Timer.removeTimer_queued (x : Timer) : x.removeTimer.queued ≤ x.queued := by
  unfold Timer.removeTimer
  split
  · exact Nat.sub_le _ _
  · exact le_rfl

/-- Entering a state sets timers of the transaction's own kind only. -/
theorem enter_queued {invite : Bool} {t : TimerName} {x : Timer} :
    (ClientTransaction.enter k invite n t x).queued ≤ x.queued ∨ t.ofInvite = invite := by
  cases invite <;> cases n <;> cases t <;>
    first
    | exact Or.inr rfl
    | exact Or.inl le_rfl

/-- A timer that is not armed already and is set now is of the transaction's own kind. -/
theorem OfKind.of_timers (h : OfKind c) (hm : d.method = c.method)
    (hs : d.state = c.state ∨ d.state ≠ .calling ∧ d.state ≠ .trying)
    (ht : ∀ t, (d.timer t).queued ≤ (c.timer t).queued ∨ t.ofInvite = c.isInviteTransaction) : OfKind d := by
  have hi : d.isInviteTransaction = c.isInviteTransaction := by
    unfold ClientTransaction.isInviteTransaction
    rw [hm]
  refine ⟨fun t ha => ?_, fun hcal => ?_, fun htry => ?_⟩
  · rw [hi]
    rcases ht t with hle | hk
    · refine h.timers t ?_
      simp only [ClientTransaction.armed, decide_eq_true_eq] at ha ⊢
      omega
    · exact hk
  · rw [hi]
    rcases hs with hs | hs
    · exact h.calling (hs ▸ hcal)
    · exact absurd hcal hs.1
  · rw [hi]
    rcases hs with hs | hs
    · exact h.trying (hs ▸ htry)
    · exact absurd htry hs.2

theorem OfKind.setState (h : OfKind c) (hn : n ≠ .calling ∧ n ≠ .trying) : OfKind (c.setState k n).1 := by
  refine h.of_timers ClientTransaction.setState_method ?_ fun t => ?_
  · rw [ClientTransaction.setState_state]
    exact Or.inr hn
  · by_cases hc : n = c.state
    · rw [ClientTransaction.setState_self hc.symm]
      exact Or.inl le_rfl
    · rw [ClientTransaction.setState_timer hc]
      exact enter_queued

/-- A launch sets the timers of the request's method. -/
theorem OfKind.launch (hd : ∀ t, c.timer t = .off) (hs : c.state = .notStarted) :
    OfKind (c.forwardRequest k env req).1.1 := by
  have hb : OfKind (c.begun k req) := by
    have hi : (c.begun k req).isInviteTransaction = decide (req.method = .invite) := by
      simp [ClientTransaction.isInviteTransaction]
      rfl
    refine ⟨fun t ha => ?_, fun hcal => ?_, fun htry => ?_⟩
    · rw [ClientTransaction.armed, ClientTransaction.begun_timer hs, hd, decide_eq_true_eq] at ha
      rcases enter_queued (k := k) (n := (c.begun k req).state) (t := t) (x := .off) with hle | hk
      · exact absurd (ha.trans_le hle) (Nat.lt_irrefl 0)
      · exact hk
    · rw [hi]
      rw [ClientTransaction.begun_state] at hcal
      split at hcal
      · rename_i hm
        exact decide_eq_true hm
      · cases hcal
    · rw [hi]
      rw [ClientTransaction.begun_state] at htry
      split at htry
      · cases htry
      · rename_i hm
        exact decide_eq_false hm
  rw [(ClientTransaction.forwardRequest_launch_eq hs).1]
  split
  · have hstop : OfKind ((c.begun k req).setState k .terminated).1 := hb.setState (by simp)
    exact ⟨hstop.timers, hstop.calling, hstop.trying⟩
  · exact hb

theorem OfKind.disarmed (h : OfKind c) : OfKind c.disarmed := by
  refine h.of_timers rfl (Or.inl rfl) fun t => Or.inl ?_
  rw [ClientTransaction.disarmed_timer]
  cases t with
  | timerA => exact Timer.removeTimer_queued _
  | timerB => exact Timer.removeTimer_queued _
  | timerC =>
    exact (Timer.removeTimer_queued _).trans ((Timer.removeTimer_queued _).trans ((Timer.removeTimer_queued _).trans
      (Timer.removeTimer_queued _)))
  | _ => exact le_rfl

theorem OfKind.cancelRequest (h : OfKind c) : OfKind (c.cancelRequest k env).1 := by
  rcases ClientTransaction.cancelRequest_cases k env c with ⟨-, he⟩ | ⟨-, he⟩ | ⟨-, he⟩ | ⟨-, he⟩
  · rw [he]
    have hm : OfKind (c.disarmed.setState k .completed).1 := h.disarmed.setState (by simp)
    exact ⟨hm.timers, hm.calling, hm.trying⟩
  · rw [he]
    exact h.disarmed.setState (by simp)
  · rw [he]
    split
    · exact ⟨h.disarmed.timers, h.disarmed.calling, h.disarmed.trying⟩
    · exact h.disarmed
  · rw [he]
    exact h.disarmed

theorem OfKind.forwardRequest (h : OfKind c) (hs : c.state ≠ .notStarted) : OfKind (c.forwardRequest k env req).1.1 := by
  have hc : OfKind { c with transmitCount := c.transmitCount + 1 } :=
    h.of_timers rfl (Or.inl rfl) fun t => Or.inl (by cases t <;> exact le_rfl)
  unfold ClientTransaction.forwardRequest
  simp only [hs, if_false]
  split
  · split
    · exact hc
    · have hstop : OfKind (({ c with transmitCount := c.transmitCount + 1 } : ClientTransaction).setState k .terminated).1 :=
        hc.setState (by simp)
      exact ⟨hstop.timers, hstop.calling, hstop.trying⟩
  · exact hc

theorem OfKind.retransmitRequest (h : OfKind c) (hs : c.state ≠ .notStarted) : OfKind (c.retransmitRequest k env req).1 := by
  have hd : OfKind { c with durationTimerA := 2 * c.durationTimerA } :=
    h.of_timers rfl (Or.inl rfl) fun t => Or.inl (by cases t <;> exact le_rfl)
  have hsent : OfKind ({ c with durationTimerA := 2 * c.durationTimerA }.forwardRequest k env req).1.1 :=
    hd.forwardRequest hs
  unfold ClientTransaction.retransmitRequest
  dsimp only
  split
  · split
    · rename_i hi
      refine hsent.of_timers rfl (Or.inl rfl) fun t => ?_
      rw [hi]
      cases t with
      | timerA => exact Or.inr rfl
      | _ => exact Or.inl le_rfl
    · rename_i hi
      refine hsent.of_timers rfl (Or.inl rfl) fun t => ?_
      cases t with
      | timerE => exact Or.inr (Bool.eq_false_iff.mpr hi).symm
      | _ => exact Or.inl le_rfl
  · exact hsent

theorem OfKind.processNewResponse (h : OfKind c) : OfKind (c.processNewResponse k r).1.1 := by
  have hc : OfKind { c with sipStatus := r.status } :=
    h.of_timers rfl (Or.inl rfl) fun t => Or.inl (by cases t <;> exact le_rfl)
  have moved : ∀ n, n ≠ .calling ∧ n ≠ .trying →
      OfKind (({ c with sipStatus := r.status } : ClientTransaction).setState k n).1 := fun n hn => hc.setState hn
  -- Removing a timer keeps the kind, and so does a field that is neither a timer nor the state.
  have removed : ∀ {d : ClientTransaction} {m : Option Response}, OfKind d →
      OfKind { d with timerC := d.timerC.removeTimer, msgFinal := m } := fun hd =>
    hd.of_timers rfl (Or.inl rfl) fun t => Or.inl (by
      cases t with
      | timerC => exact Timer.removeTimer_queued _
      | _ => exact le_rfl)
  unfold ClientTransaction.processNewResponse
  dsimp only
  split
  · split
    · exact moved _ (by simp)
    · split
      · rename_i hi
        have hp := moved .proceeding (by simp)
        refine hp.of_timers rfl (Or.inl rfl) fun t => ?_
        cases t with
        | timerC => exact Or.inr (by rw [ClientTransaction.setState_isInvite, hi]; rfl)
        | _ => exact Or.inl le_rfl
      · have hp := moved .proceeding (by simp)
        exact ⟨hp.timers, hp.calling, hp.trying⟩
  · split
    · split
      · exact removed (moved .terminated (by simp))
      · exact moved .completed (by simp)
    · split
      · split
        · exact removed (moved .completed (by simp))
        · have hp := moved .completed (by simp)
          exact ⟨hp.timers, hp.calling, hp.trying⟩
      · exact hc

theorem OfKind.processResponse (h : OfKind c) : OfKind (c.processResponse k env r).1.1 := by
  unfold ClientTransaction.processResponse
  split
  · exact h
  · split
    · exact (h.setState (by simp)).cancelRequest
    · split
      · split
        · exact h
        · exact h.processNewResponse
      · exact h

theorem OfKind.expire (h : OfKind c) (t : TimerName) : OfKind (c.expire t) := by
  refine h.of_timers (by cases t <;> rfl) (Or.inl (by simp)) fun u => Or.inl ?_
  rw [ClientTransaction.expire_timer]
  split
  · exact Nat.sub_le _ _
  · exact le_rfl

theorem OfKind.timerFires (h : OfKind c) (hs : c.state ≠ .notStarted) (t : TimerName) :
    OfKind (c.timerFires k env req t).1 := by
  have he : ∀ t, (c.expire t).state ≠ .notStarted := fun t => by rwa [ClientTransaction.expire_state]
  cases t with
  | timerA => exact (h.expire _).retransmitRequest (he _)
  | timerE => exact (h.expire _).retransmitRequest (he _)
  | timerC =>
    simp only [ClientTransaction.timerFires]
    split
    · exact (h.expire _).cancelRequest.setState (by simp)
    · exact (h.expire _).setState (by simp)
  | _ => exact (h.expire _).setState (by simp)

end

/-! ### Runs -/

/-- Launched transactions are of the kind of their method. -/
def Kinds (_ : List Output) (c : ClientTransaction) : Prop := c.Dormant ∨ c.Launched ∧ OfKind c

section
variable {s : ProxyCore} {i : Input} {c : ClientTransaction}

theorem launches_kinds {next : Nat} {k : Settings} {env : Env} {req : Request} :
    Launches Kinds (fun _ => True) next k env req where
  mono h := h
  nil := trivial
  append _ _ := trivial
  note _ := trivial
  new _ := Or.inl ClientTransaction.dormant_new
  launch hs h := by
    rcases h with hd | hl
    · obtain ⟨hb, -, hst⟩ := ClientTransaction.forwardRequest_launch hs
      exact ⟨Or.inr ⟨⟨by simpa using hb, hst⟩, OfKind.launch hd.timers hs⟩, trivial⟩
    · exact absurd hs hl.1.state

theorem closed_kinds : Closed Kinds (fun _ => True) s i where
  toLaunches := launches_kinds
  act ha _ hP := by
    refine ⟨?_, trivial⟩
    rcases hP with hd | ⟨hl, hk⟩
    · exact Or.inl (ha.dormant hd)
    · refine Or.inr ⟨ha.launched hl, ?_⟩
      cases ha with
      | response _ _ => exact hk.processResponse
      | timer _ _ _ => exact hk.timerFires hl.state _
      | info _ _ => exact hk.forwardRequest hl.state
      | prack _ _ => exact ⟨hk.timers, hk.calling, hk.trying⟩
  cancel _ hP := by
    refine ⟨?_, trivial⟩
    rcases hP with hd | ⟨hl, hk⟩
    · exact Or.inl hd.cancelRequest
    · exact Or.inr ⟨hl.cancelRequest, hk.cancelRequest⟩

end

end Drachtio.Proxy
