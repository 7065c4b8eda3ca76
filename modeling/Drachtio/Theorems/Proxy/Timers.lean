import Drachtio.Theorems.Proxy.Progress

/-! The timers of a client transaction fit its state, and so no assert of the state machine fails: as long as no
    provisional response reopens a completed transaction or follows a cancellation, and no retransmission fails to
    be sent. -/

namespace Drachtio.Proxy
open ProxyCore

/-- The asserts of setState, of the provisional responses and of the timer callbacks. -/
def Assertion.ofStateMachine : Assertion → Bool
  | .timerUnset _ | .timerCSet | .firedIn _ => true
  | _ => false

structure AssertsHold (s : ProxyCore) : Prop where
  log : ∀ a, .assertFailed a ∈ s.log → a.ofStateMachine = false
  /-- Whichever timer fires next, its callback finds the state it expects. -/
  armed : ∀ c ∈ s.all, ∀ t, c.armed t = true → ClientTransaction.firesIn t c.state = true
  terminated : ∀ c ∈ s.all, c.state = .terminated → ∀ t, c.armed t = false

/-- No provisional and no late response reaches a completed transaction, none other than 100 reaches a proceeding
    INVITE after the outstanding requests were canceled, and no retransmission fails on a transport that was found. -/
def Undisturbed (s : ProxyCore) (env : Env) : Event → Prop
  | .response r => ∀ c ∈ s.taker r,
      (c.state = .completed → ¬(100 ≤ r.status ∧ r.status ≤ 199) ∧ c.isLate r = false) ∧
      (c.state = .proceeding ∧ c.isInviteTransaction = true ∧ 101 ≤ r.status ∧ r.status ≤ 199 →
        .cancelOutstanding ∉ s.log)
  | .timer t id => t = .timerA ∨ t = .timerE → env.hasTransport id = true → env.sendRequest id = true
  | _ => True

instance (s : ProxyCore) (env : Env) : ∀ e, Decidable (Undisturbed s env e)
  | .response r => inferInstanceAs (Decidable (∀ c ∈ s.taker r, _ ∧ _))
  | .timer _ _ => inferInstanceAs (Decidable (_ → _ → _))
  | .cancel | .info _ | .prack _ => isTrue trivial

/-! ### Slots -/

/-- The timers that may run in a state. -/
def mayRun (invite : Bool) (n : TransactionState) (t : TimerName) : Bool :=
  match invite, n, t with
  | true, .calling, .timerA | true, .calling, .timerB | true, .calling, .timerC | true, .calling, .timerProvisional
  | true, .proceeding, .timerC | true, .completed, .timerD
  | false, .trying, .timerE | false, .trying, .timerF | false, .proceeding, .timerF | false, .completed, .timerK => true
  | _, _, _ => false

/-- A slot is empty, or it has one entry that may run. -/
def Slot (invite : Bool) (n : TransactionState) (t : TimerName) (x : Timer) : Prop :=
  x = .off ∨ x = .on ∧ mayRun invite n t = true

section
variable {invite : Bool} {n m : TransactionState} {t u : TimerName} {x : Timer} {k : Settings}

theorem mayRun_firesIn (h : mayRun invite n t = true) : ClientTransaction.firesIn t n = true := by
  cases invite <;> cases n <;> cases t <;> simp_all [mayRun, ClientTransaction.firesIn]

/-- At most one timer runs in completed. -/
theorem mayRun_completed (h : mayRun invite .completed t = true) (h' : mayRun invite .completed u = true) : u = t := by
  cases invite <;> cases t <;> simp [mayRun] at h <;> cases u <;> simp [mayRun] at h' <;> rfl

theorem Slot.remove (h : Slot invite n t x) : x.removeTimer = .off := by
  rcases h with rfl | ⟨rfl, -⟩ <;> rfl

theorem Slot.off_of_not (h : Slot invite n t x) (hm : mayRun invite n t = false) : x = .off := by
  rcases h with h | ⟨-, h⟩
  · exact h
  · simp [hm] at h

theorem Slot.armed (h : Slot invite n t x) (ha : 0 < x.queued) : x = .on ∧ mayRun invite n t = true := by
  rcases h with rfl | h
  · simp [Timer.off] at ha
  · exact h

/-- Moving forward keeps the slots; out of completed, once its timer has expired. -/
theorem Slot.enter (h : Slot invite n t x) (hr : n.rank < m.rank) (hm : m = .proceeding ∨ m = .completed ∨ m = .terminated)
    (hc : n = .completed → x = .off) : Slot invite m t (ClientTransaction.enter k invite m t x) := by
  have hoff : Timer.off.removeTimer = .off := rfl
  have hon : Timer.on.removeTimer = .off := rfl
  have hadd : Timer.off.addTimer = .on := rfl
  rcases h with rfl | ⟨rfl, hrun⟩
  · rcases hm with rfl | rfl | rfl <;> cases invite <;> cases t <;>
      simp [Slot, ClientTransaction.enter, mayRun, hoff, hadd]
  · have hne : n ≠ .completed := fun e => by simpa [Timer.on, Timer.off] using hc e
    cases invite <;> cases n <;> cases t <;> simp [mayRun] at hrun <;> rcases hm with rfl | rfl | rfl <;>
      simp_all [Slot, ClientTransaction.enter, mayRun, TransactionState.rank]

/-- Entering calling or trying from empty slots. -/
theorem Slot.begin (hm : m = if invite = true then .calling else .trying) :
    Slot invite m t (ClientTransaction.enter k invite m t .off) := by
  have hadd : Timer.off.addTimer = .on := rfl
  subst hm
  cases invite <;> cases t <;> simp only [Slot, ClientTransaction.enter, mayRun, hadd, if_true, Bool.false_eq_true,
    if_false, true_or, or_true, and_self, and_true]
  split <;> simp

end

/-! ### Transactions -/

/-- The timers fit the state. Timer C runs in calling and proceeding unless the outstanding requests were canceled. -/
structure Fits (l : List Output) (c : ClientTransaction) : Prop where
  slots : ∀ t, Slot c.isInviteTransaction c.state t (c.timer t)
  calling : c.state = .calling → c.isInviteTransaction = true ∧ c.timerC = .on
  trying : c.state = .trying → c.isInviteTransaction = false
  proceeding : c.state = .proceeding → c.isInviteTransaction = true → c.timerC = .on ∨ .cancelOutstanding ∈ l

/-- No assert of the state machine fails. -/
def Unfailed (w : List Output) : Prop := ∀ a, .assertFailed a ∈ w → a.ofStateMachine = false

section
variable {k : Settings} {env : Env} {req : Request} {r : Response} {c : ClientTransaction} {l w : List Output}
  {n : TransactionState}

theorem Fits.mono (h : Fits l c) : Fits (l ++ w) c where
  slots := h.slots
  calling := h.calling
  trying := h.trying
  proceeding h₁ h₂ := (h.proceeding h₁ h₂).imp_right (List.mem_append_left _)

/-- Empty slots fit every state but calling, trying and proceeding. -/
theorem Fits.of_off (h : ∀ t, c.timer t = .off) (hs : c.state = .notStarted ∨ c.state = .terminated) : Fits l c where
  slots t := Or.inl (h t)
  calling hc := by rcases hs with hs | hs <;> simp [hs] at hc
  trying hc := by rcases hs with hs | hs <;> simp [hs] at hc
  proceeding hc := by rcases hs with hs | hs <;> simp [hs] at hc

theorem ClientTransaction.Dormant.fits (h : c.Dormant) : Fits l c := .of_off h.timers h.state

/-- Moving forward keeps the slots of a transaction. -/
theorem slots_setState (h : ∀ t, Slot c.isInviteTransaction c.state t (c.timer t)) (hr : c.state.rank < n.rank)
    (hn : n = .proceeding ∨ n = .completed ∨ n = .terminated) (hc : c.state = .completed → ∀ t, c.timer t = .off) :
    ∀ t, Slot (c.setState k n).1.isInviteTransaction (c.setState k n).1.state t ((c.setState k n).1.timer t) := by
  intro t
  have hne : n ≠ c.state := fun e => by rw [e] at hr; exact absurd hr (Nat.lt_irrefl _)
  rw [ClientTransaction.setState_isInvite, ClientTransaction.setState_state, ClientTransaction.setState_timer hne]
  exact (h t).enter hr hn fun e => hc e t

theorem Fits.enter_completed (h : ∀ t, Slot c.isInviteTransaction c.state t (c.timer t))
    (hs : c.state.rank < TransactionState.completed.rank) : Fits l (c.setState k .completed).1 where
  slots := slots_setState h hs (by simp) fun e => by simp [e] at hs
  calling := by simp
  trying := by simp
  proceeding := by simp

/-- Nothing runs in terminated. -/
theorem Fits.enter_terminated (h : ∀ t, Slot c.isInviteTransaction c.state t (c.timer t))
    (hc : c.state = .completed → ∀ t, c.timer t = .off) : Fits l (c.setState k .terminated).1 := by
  by_cases hs : c.state = .terminated
  · rw [ClientTransaction.setState_self hs]
    refine .of_off (fun t => (h t).off_of_not ?_) (Or.inr hs)
    rw [hs]
    cases c.isInviteTransaction <;> cases t <;> rfl
  · exact ⟨slots_setState h (rank_lt_terminated hs) (by simp) hc, by simp, by simp, by simp⟩

theorem slots_disarmed (h : ∀ t, Slot c.isInviteTransaction c.state t (c.timer t)) (t : TimerName) :
    Slot c.isInviteTransaction c.state t (c.disarmed.timer t) := by
  have hoff : Timer.off.removeTimer = .off := rfl
  rw [ClientTransaction.disarmed_timer]
  cases t
  case timerA => exact Or.inl (h .timerA).remove
  case timerB => exact Or.inl (h .timerB).remove
  case timerC => exact Or.inl (by simp only [(h .timerC).remove, hoff])
  all_goals exact h _

theorem Fits.congr {d : ClientTransaction} (h : Fits l c) (ht : ∀ t, d.timer t = c.timer t) (hs : d.state = c.state)
    (hm : d.method = c.method) : Fits l d := by
  have hi : d.isInviteTransaction = c.isInviteTransaction := by simp [ClientTransaction.isInviteTransaction, hm]
  have htC : d.timerC = c.timerC := ht .timerC
  refine ⟨fun t => ?_, fun hc => ?_, fun hc => ?_, fun hc hv => ?_⟩
  · rw [hi, hs, ht]
    exact h.slots t
  · rw [hi, htC]
    exact h.calling (hs ▸ hc)
  · rw [hi]
    exact h.trying (hs ▸ hc)
  · rw [htC]
    exact h.proceeding (hs ▸ hc) (hi ▸ hv)

theorem Fits.disarmed (h : Fits l c) (hs : c.state ≠ .calling) (hl : c.state = .proceeding → .cancelOutstanding ∈ l) :
    Fits l c.disarmed :=
  ⟨slots_disarmed h.slots, fun hc => absurd hc hs, h.trying, fun hc _ => Or.inr (hl hc)⟩

theorem Fits.cancelRequest (h : Fits l c) (hl : .cancelOutstanding ∈ l) : Fits l (c.cancelRequest k env).1 := by
  have hd := slots_disarmed h.slots
  rcases ClientTransaction.cancelRequest_cases k env c with ⟨hs, he⟩ | ⟨hs, he⟩ | ⟨hs, he⟩ | ⟨hs, he⟩ <;> rw [he]
  · have hf : Fits l (c.disarmed.setState k .completed).1 := .enter_completed hd (by
      show c.state.rank < _
      rw [hs]
      decide)
    exact hf.congr (fun t => by cases t <;> rfl) rfl rfl
  · exact .enter_terminated hd fun hc => by
      rw [show c.disarmed.state = c.state from rfl, hs] at hc
      cases hc
  · have hf : Fits l c.disarmed := h.disarmed (by simp [hs]) fun _ => hl
    split
    · exact hf.congr (fun t => by cases t <;> rfl) rfl rfl
    · exact hf
  · exact h.disarmed (by rcases hs with hs | hs | hs <;> simp [hs]) fun _ => hl

/-- The state of a started transaction after `forwardRequest`: it stops when the request cannot be sent. -/
theorem Fits.forwardRequest (h : Fits l c) (hs : c.state ≠ .notStarted) (hc : c.state ≠ .completed) :
    Fits l (c.forwardRequest k env req).1.1 := by
  have hsame : Fits l { c with transmitCount := c.transmitCount + 1 } :=
    h.congr (fun t => by cases t <;> rfl) rfl rfl
  unfold ClientTransaction.forwardRequest
  simp only [hs, if_false]
  split
  · split
    · exact hsame
    · have hf : Fits l ({ c with transmitCount := c.transmitCount + 1 }.setState k .terminated).1 :=
        .enter_terminated hsame.slots fun e => absurd e hc
      exact hf.congr (fun t => by cases t <;> rfl) rfl rfl
  · exact hsame

theorem Fits.launch (h : Fits l c) (hs : c.state = .notStarted) : Fits l (c.forwardRequest k env req).1.1 := by
  have hoff : ∀ t, c.timer t = .off := fun t => (h.slots t).off_of_not (by
    rw [hs]
    cases c.isInviteTransaction <;> cases t <;> rfl)
  have hstate : (c.begun k req).state = if (c.begun k req).isInviteTransaction = true then .calling else .trying := by
    simp [ClientTransaction.isInviteTransaction]
  have htimer : ∀ t, (c.begun k req).timer t = ClientTransaction.enter k (c.begun k req).isInviteTransaction
      (c.begun k req).state t .off := fun t => by rw [ClientTransaction.begun_timer hs, hoff]
  have hb : Fits l (c.begun k req) := by
    refine ⟨fun t => ?_, fun hc => ?_, fun hc => ?_, fun hc => ?_⟩
    · rw [htimer]
      exact .begin hstate
    · have hi : (c.begun k req).isInviteTransaction = true := by
        by_contra hi
        rw [if_neg hi, hc] at hstate
        cases hstate
      have hC := htimer .timerC
      rw [hi, hc] at hC
      exact ⟨hi, hC⟩
    · by_contra hi
      rw [if_pos (by simpa using hi), hc] at hstate
      cases hstate
    · rw [hc] at hstate
      split at hstate <;> cases hstate
  rw [(ClientTransaction.forwardRequest_launch_eq hs).1]
  split
  · have hf : Fits l ((c.begun k req).setState k .terminated).1 := .enter_terminated hb.slots fun e => by
      rw [hstate] at e
      split at e <;> cases e
    exact hf.congr (fun t => by cases t <;> rfl) rfl rfl
  · exact hb

/-- Timer C does not run in completed and terminated. -/
theorem Fits.timerC_off (h : Fits l c) (hs : c.state = .completed ∨ c.state = .terminated) : c.timerC = .off := by
  refine (h.slots .timerC).off_of_not ?_
  rcases hs with hs | hs <;> rw [hs] <;> cases c.isInviteTransaction <;> rfl

/-- Removing a timer C that does not run changes no timer. -/
theorem Fits.removeTimerC (h : Fits l c) (hs : c.state = .completed ∨ c.state = .terminated) :
    Fits l { c with timerC := c.timerC.removeTimer } := by
  refine h.congr (fun t => ?_) rfl rfl
  cases t
  case timerC =>
    show c.timerC.removeTimer = c.timerC
    rw [h.timerC_off hs]
    rfl
  all_goals rfl

theorem Fits.enter_proceeding (h : Fits l c) (hs : c.state = .calling ∨ c.state = .trying ∨ c.state = .proceeding) :
    Fits l (c.setState k .proceeding).1 := by
  by_cases hp : c.state = .proceeding
  · rw [ClientTransaction.setState_self hp]
    exact h
  · have hr : c.state.rank < TransactionState.proceeding.rank := by
      rcases hs with hs | hs | hs
      · rw [hs]
        decide
      · rw [hs]
        decide
      · exact absurd hs hp
    refine ⟨slots_setState h.slots hr (by simp) fun hc => ?_, by simp, by simp, fun _ hi => ?_⟩
    · rw [hc] at hr
      exact absurd hr (by decide)
    · rw [ClientTransaction.setState_isInvite] at hi
      rw [ClientTransaction.setState_timerC_proceeding]
      rcases hs with hs | hs | hs
      · exact Or.inl (h.calling hs).2
      · rw [h.trying hs] at hi
        cases hi
      · exact absurd hs hp

theorem Fits.processNewResponse (h : Fits l c) (hns : c.state ≠ .notStarted) (hterm : c.state ≠ .terminated)
    (hcomp : c.state = .completed → r.status < 100)
    (hcan : c.state = .proceeding → c.isInviteTransaction = true → 101 ≤ r.status → r.status ≤ 199 → c.timerC = .on) :
    Fits l (c.processNewResponse k r).1.1 ∧ Unfailed (c.processNewResponse k r).1.2 := by
  have hst : 100 ≤ r.status → c.state = .calling ∨ c.state = .trying ∨ c.state = .proceeding := fun hr => by
    cases hs : c.state
    case notStarted => exact absurd hs hns
    case terminated => exact absurd hs hterm
    case completed => exact absurd (hcomp hs) (by omega)
    all_goals simp
  have htC : 101 ≤ r.status → r.status ≤ 199 → c.isInviteTransaction = true → c.timerC = .on := fun h₁ h₂ hi => by
    rcases hst (by omega) with hs | hs | hs
    · exact (h.calling hs).2
    · rw [h.trying hs] at hi
      cases hi
    · exact hcan hs hi h₁ h₂
  have hstat : Fits l { c with sipStatus := r.status } := h.congr (fun t => by cases t <;> rfl) rfl rfl
  refine ⟨?_, fun a ha => ?_⟩
  · unfold ClientTransaction.processNewResponse
    dsimp only
    split
    · rename_i hr
      have hm : Fits l ({ c with sipStatus := r.status }.setState k .proceeding).1 := hstat.enter_proceeding (hst hr.1)
      split
      · exact hm
      · rename_i h100
        split
        · rename_i hi
          have hon : ({ c with sipStatus := r.status }.setState k .proceeding).1.timerC = .on := by
            rw [ClientTransaction.setState_timerC_proceeding]
            exact htC (by omega) hr.2 hi
          refine hm.congr (fun t => ?_) rfl rfl
          cases t
          case timerC =>
            show (ClientTransaction.timerC _).removeTimer.addTimer = ClientTransaction.timerC _
            rw [hon]
            rfl
          all_goals rfl
        · exact hm.congr (fun t => by cases t <;> rfl) rfl rfl
    · split
      · rename_i hr
        have hlow : c.state.rank < TransactionState.completed.rank ∧ c.state ≠ .completed := by
          rcases hst (by omega) with hs | hs | hs <;> rw [hs] <;> decide
        split
        · have hm : Fits l ({ c with sipStatus := r.status }.setState k .terminated).1 :=
            .enter_terminated hstat.slots fun e => absurd e hlow.2
          exact hm.removeTimerC (by simp)
        · exact .enter_completed hstat.slots hlow.1
      · split
        · have hlow : c.state.rank < TransactionState.completed.rank := by
            rcases hst (by omega) with hs | hs | hs <;> rw [hs] <;> decide
          have hm : Fits l ({ c with sipStatus := r.status }.setState k .completed).1 := .enter_completed hstat.slots hlow
          split
          · exact (hm.removeTimerC (by simp)).congr (fun t => by cases t <;> rfl) rfl rfl
          · exact hm.congr (fun t => by cases t <;> rfl) rfl rfl
        · exact hstat
  · rcases ClientTransaction.mem_processNewResponse ha with ⟨n, hx, -⟩ | ⟨hx, h₁, h₂, hi, hoff⟩ | ⟨hx, -⟩
    · cases hx
    · rw [htC h₁ h₂ hi] at hoff
      cases hoff
    · cases hx

theorem Fits.processResponse (h : Fits l c) (hns : c.state ≠ .notStarted)
    (hc : c.state = .completed → ¬(100 ≤ r.status ∧ r.status ≤ 199) ∧ c.isLate r = false)
    (hcan : c.state = .proceeding → c.isInviteTransaction = true → 101 ≤ r.status → r.status ≤ 199 → c.timerC = .on) :
    Fits l (c.processResponse k env r).1.1 ∧ Unfailed (c.processResponse k env r).1.2 := by
  have hlate : c.isLate r = false := by
    by_contra hl
    have hl : c.isLate r = true := by simpa using hl
    rw [(hc (ClientTransaction.isLate_iff.mp hl).2.1).2] at hl
    cases hl
  unfold ClientTransaction.processResponse
  rw [hlate]
  split
  · exact ⟨h, by simp [Unfailed]⟩
  · rename_i hterm
    simp only [Bool.false_eq_true, if_false]
    split
    · split
      · exact ⟨h, by split <;> simp [Unfailed]⟩
      · rename_i hrep
        refine h.processNewResponse hns hterm (fun hcomp => ?_) hcan
        have := (hc hcomp).1
        have : ¬200 ≤ r.status := fun h200 => hrep ⟨hcomp, h200⟩
        omega
    · exact ⟨h, by simp [Unfailed]⟩

/-! ### Callbacks -/

theorem slots_expire (h : Fits l c) {t : TimerName} (ht : c.timer t = .on) :
    ∀ u, Slot (c.expire t).isInviteTransaction (c.expire t).state u ((c.expire t).timer u) := by
  intro u
  rw [ClientTransaction.expire_timer, ClientTransaction.expire_isInvite, ClientTransaction.expire_state]
  split
  · rename_i hu
    rw [hu, ht]
    exact Or.inl rfl
  · exact h.slots u

theorem Fits.expire (h : Fits l c) {t : TimerName} (ht : c.timer t = .on) (hne : t ≠ .timerC) : Fits l (c.expire t) := by
  have hC : (c.expire t).timerC = c.timerC := by
    have := ClientTransaction.expire_timer (c := c) t .timerC
    rwa [if_neg (Ne.symm hne)] at this
  refine ⟨slots_expire h ht, ?_, ?_, ?_⟩ <;> simp only [ClientTransaction.expire_state, ClientTransaction.expire_isInvite, hC]
  · exact h.calling
  · exact h.trying
  · exact h.proceeding

/-- The timer of the completed state was the only one. -/
theorem off_of_expire_completed (h : Fits l c) {t : TimerName} (ht : c.timer t = .on)
    (hm : mayRun c.isInviteTransaction c.state t = true) (hc : c.state = .completed) : ∀ u, (c.expire t).timer u = .off := by
  intro u
  rw [ClientTransaction.expire_timer]
  split
  · rename_i hu
    rw [hu, ht]
    rfl
  · rename_i hne
    rcases h.slots u with hu | ⟨-, hu⟩
    · exact hu
    · rw [hc] at hm hu
      exact absurd (mayRun_completed hm hu) hne

/-- The timer that is set again is the one of the state. -/
theorem Fits.retransmitRequest (h : Fits l c) (hs : c.state = .calling ∨ c.state = .trying) (hA : c.timerA = .off)
    (hE : c.timerE = .off) (hsend : env.hasTransport c.id = true → env.sendRequest c.id = true) :
    Fits l (c.retransmitRequest k env req).1 := by
  have hns : c.state ≠ .notStarted := by rcases hs with hs | hs <;> simp [hs]
  obtain ⟨heq, hflag⟩ := @ClientTransaction.forwardRequest_sent k env req
    { c with durationTimerA := 2 * c.durationTimerA } hns hsend
  have hd : Fits l { c with durationTimerA := 2 * c.durationTimerA, transmitCount := c.transmitCount + 1 } :=
    h.congr (fun t => by cases t <;> rfl) rfl rfl
  unfold ClientTransaction.retransmitRequest
  dsimp only
  rw [heq]
  split
  · split
    · rename_i hi
      have hi : c.isInviteTransaction = true := hi
      have hcall : c.state = .calling := by
        rcases hs with hs | hs
        · exact hs
        · rw [h.trying hs] at hi
          cases hi
      refine ⟨fun t => ?_, hd.calling, hd.trying, hd.proceeding⟩
      cases t
      case timerA =>
        refine Or.inr ⟨?_, ?_⟩
        · show c.timerA.addTimer = .on
          rw [hA]
          rfl
        · show mayRun c.isInviteTransaction c.state .timerA = true
          rw [hi, hcall]
          rfl
      all_goals exact h.slots _
    · rename_i hi
      have hi : ¬c.isInviteTransaction = true := hi
      have htry : c.state = .trying := by
        rcases hs with hs | hs
        · exact absurd (h.calling hs).1 hi
        · exact hs
      refine ⟨fun t => ?_, hd.calling, hd.trying, hd.proceeding⟩
      cases t
      case timerE =>
        refine Or.inr ⟨?_, ?_⟩
        · show c.timerE.addTimer = .on
          rw [hE]
          rfl
        · show mayRun c.isInviteTransaction c.state .timerE = true
          rw [htry, h.trying htry]
          rfl
      all_goals exact h.slots _
  · rw [heq]
    exact hd

theorem Fits.timerFires (h : Fits l c) (hns : c.state ≠ .notStarted) {t : TimerName} (ha : c.armed t = true)
    (hsend : t = .timerA ∨ t = .timerE → env.hasTransport c.id = true → env.sendRequest c.id = true) :
    Fits l (c.timerFires k env req t).1 ∧ Unfailed (c.timerFires k env req t).2 := by
  obtain ⟨ht, hm⟩ := (h.slots t).armed (by simpa [ClientTransaction.armed] using ha)
  have hfires := mayRun_firesIn hm
  have stop : Fits l ((c.expire t).setState k .terminated).1 :=
    .enter_terminated (slots_expire h ht) fun hc => off_of_expire_completed h ht hm (by simpa using hc)
  refine ⟨?_, fun a hx => ?_⟩
  · cases t with
    | timerA =>
      have hcall : c.state = .calling := by simpa [ClientTransaction.firesIn] using hfires
      refine (h.expire ht (by simp)).retransmitRequest (Or.inl (by simpa using hcall)) ?_ ?_ (by simpa using hsend)
      · show c.timerA.expire = .off
        rw [show c.timerA = .on from ht]
        rfl
      · refine ((h.expire ht (by simp)).slots .timerE).off_of_not ?_
        rw [ClientTransaction.expire_state, hcall, ClientTransaction.expire_isInvite, (h.calling hcall).1]
        rfl
    | timerE =>
      have htry : c.state = .trying := by simpa [ClientTransaction.firesIn] using hfires
      refine (h.expire ht (by simp)).retransmitRequest (Or.inr (by simpa using htry)) ?_ ?_ (by simpa using hsend)
      · refine ((h.expire ht (by simp)).slots .timerA).off_of_not ?_
        rw [ClientTransaction.expire_state, htry, ClientTransaction.expire_isInvite, h.trying htry]
        rfl
      · show c.timerE.expire = .off
        rw [show c.timerE = .on from ht]
        rfl
    | timerC =>
      simp only [ClientTransaction.timerFires]
      split
      · rename_i hp
        -- The canceled transaction stays in proceeding, without timers, until it is terminated here.
        have hp' : (c.expire .timerC).state = .proceeding := by simpa using hp
        have hd := slots_disarmed (slots_expire h ht)
        have hstop : Fits l ((c.expire .timerC).disarmed.setState k .terminated).1 :=
          .enter_terminated hd fun hc => by
            rw [show (c.expire .timerC).disarmed.state = .proceeding from hp'] at hc
            cases hc
        rcases ClientTransaction.cancelRequest_cases k env (c.expire .timerC) with ⟨hs, -⟩ | ⟨hs, -⟩ | ⟨-, he⟩ | ⟨hs, -⟩
        · simp [hp] at hs
        · simp [hp] at hs
        · rw [he]
          split
          · refine Fits.enter_terminated (fun u => ?_) fun hc => ?_
            · have := hd u
              cases u <;> exact this
            · rw [show ({ (c.expire .timerC).disarmed with canceled := true } : ClientTransaction).state = .proceeding from
                hp'] at hc
              cases hc
          · exact hstop
        · simp [hp] at hs
      · exact stop
    | timerProvisional =>
      have hcall : c.state = .calling := by simpa [ClientTransaction.firesIn] using hfires
      refine .enter_completed (slots_expire h ht) ?_
      rw [ClientTransaction.expire_state, hcall]
      decide
    | timerB => exact stop
    | timerD => exact stop
    | timerF => exact stop
    | timerK => exact stop
  · rcases ClientTransaction.mem_timerFires hns hx with ⟨-, hf⟩ | ⟨n, hx, -⟩ | ⟨m, hx⟩ | ⟨-, hx | hx⟩
    · rw [hfires] at hf
      cases hf
    · cases hx
    · cases hx
    · cases hx
    · cases hx

end

/-! ### Steps and runs -/

theorem launches_fits {next : Nat} {k : Settings} {env : Env} {req : Request} :
    Launches Fits Unfailed next k env req where
  mono h := h.mono
  nil := by simp [Unfailed]
  append h h' a ha := (List.mem_append.mp ha).elim (h a) (h' a)
  note hx a ha := by
    rw [← List.mem_singleton.mp ha] at hx
    cases a <;> simp_all [Output.isNote, Assertion.ofStateMachine]
  new _ := ClientTransaction.dormant_new.fits
  launch {l c} hs h := by
    refine ⟨(h.launch hs).mono, fun a ha => ?_⟩
    rcases ClientTransaction.mem_forwardRequest_launch hs ha with ⟨a', hx, rfl | ⟨t, -, hset⟩⟩ | ⟨n, -, hx | hx⟩ | ⟨m, hx⟩
    · cases hx
      rfl
    · rw [(h.slots t).off_of_not (by rw [hs]; cases c.isInviteTransaction <;> cases t <;> rfl)] at hset
      cases hset
    · cases hx
    · cases hx
    · cases hx

section
variable {s : ProxyCore} {i : Input}

theorem closed_fits (hr : Reached s) (hu : Undisturbed s i.env i.event) (hall : ∀ c ∈ s.all, Fits s.log c) :
    Closed Fits Unfailed s i where
  toLaunches := launches_fits
  act {l c x} ha hpre h := by
    have prack : ∀ rack, Fits (l ++ (c.forwardPrack i.env rack).2) (c.forwardPrack i.env rack).1 ∧
        Unfailed (c.forwardPrack i.env rack).2 := fun rack => by
      refine ⟨(h.congr ClientTransaction.forwardPrack_timer rfl rfl).mono, fun a ha => ?_⟩
      rcases ClientTransaction.mem_forwardPrack ha with hx | hx
      · cases hx
        rfl
      · cases hx
    rcases hr.classified c ha.mem with hd | hl
    · obtain ⟨rack, -, rfl⟩ := ha.prack_of_dormant hd
      exact prack rack
    · cases ha with
      | @response r _ he hc =>
        rw [he] at hu
        obtain ⟨hcomp, hcan⟩ := hu c hc
        have hC : c.state = .proceeding → c.isInviteTransaction = true → 101 ≤ r.status → r.status ≤ 199 →
            c.timerC = .on := fun hp hi h₁ h₂ => by
          have hmem := List.mem_append_left s.gone (List.mem_of_find?_eq_some (taker_eq_some.mp hc).2.2.2)
          exact ((hall c hmem).proceeding hp hi).resolve_right (hcan ⟨hp, hi, h₁, h₂⟩)
        obtain ⟨hf, hw⟩ : Fits _ (c.processResponse s.settings i.env r).1.1 ∧ Unfailed _ :=
          h.processResponse hl.state hcomp hC
        exact ⟨hf.mono, hw⟩
      | timer he hc ha =>
        rw [he] at hu
        obtain ⟨hf, hw⟩ : Fits _ (c.timerFires s.settings i.env s.request _).1 ∧ Unfailed _ :=
          h.timerFires hl.state ha hu
        exact ⟨hf.mono, hw⟩
      | info he hc =>
        have hst := List.find?_some hc
        refine ⟨(h.forwardRequest hl.state fun e => by simp [ClientTransaction.isCallingOrProceeding, e] at hst).mono,
          fun a ha => ?_⟩
        rcases ClientTransaction.mem_forwardRequest hl.state ha with ⟨hx, -⟩ | ⟨m, hx⟩ <;> cases hx
      | prack he hc => exact prack _
  cancel hmarks h := by
    obtain ⟨-, hmark⟩ := hmarks
    refine ⟨(h.cancelRequest hmark).mono, fun a ha => ?_⟩
    rcases ClientTransaction.mem_cancelRequest ha with ⟨hx, -⟩ | ⟨hx, -⟩ | ⟨hx, -⟩ <;> cases hx

end

/-- In every state of a run that is not disturbed, no assert has failed and none of the armed timers can fail one. -/
theorem asserts_hold (k : Settings) (env : Env) (req : Request) (destinations : List String) (is : List Input)
    (h : Machine.Meets step (fun s i => Undisturbed s i.env i.event) (doProxy k env req destinations) is) :
    AssertsHold (Machine.run step (doProxy k env req destinations) is) := by
  obtain ⟨-, hfits, hlog⟩ : Reached (Machine.run step (doProxy k env req destinations) is) ∧
      Good Fits Unfailed (Machine.run step (doProxy k env req destinations) is) := by
    refine Machine.run_induction (I := fun s => Reached s ∧ Good Fits Unfailed s) (fun s i hs hu => ?_) ?_ h
    · exact ⟨step_reached hs.1 i, (closed_fits hs.1 hu hs.2.clients).step hs.2⟩
    · exact ⟨doProxy_reached, launches_fits.doProxy⟩
  have hrun : ∀ c ∈ (Machine.run step (doProxy k env req destinations) is).all, ∀ t, c.armed t = true →
      mayRun c.isInviteTransaction c.state t = true := fun c hc t ha =>
    (((hfits c hc).slots t).armed (by simpa [ClientTransaction.armed] using ha)).2
  refine ⟨hlog, fun c hc t ha => mayRun_firesIn (hrun c hc t ha), fun c hc ht t => ?_⟩
  by_contra ha
  have hm := hrun c hc t (by simpa using ha)
  rw [ht] at hm
  cases hi : c.isInviteTransaction <;> cases t <;> simp [hi, mayRun] at hm

/-- The caller hangs up while the target rings, and the target still sends a 183: timer C is gone. -/
theorem asserts_hold_canceled :
    let s := Machine.run step (doProxy { launchType := .serial } .reliable { method := .invite } ["sip:a.example.org"])
      [⟨.reliable, .response { status := 180, method := .invite, branch := 0 }⟩, ⟨.reliable, .cancel⟩,
        ⟨.reliable, .response { status := 183, method := .invite, branch := 0 }⟩]
    ¬AssertsHold s := by
  intro s h
  exact absurd (h.log .timerCSet (by decide)) (by decide)

/-- A call that rings, is canceled and ends. -/
theorem asserts_hold_487 :
    let is : List Input := [⟨.reliable, .timer .timerA 0⟩,
      ⟨.reliable, .response { status := 180, method := .invite, branch := 0 }⟩, ⟨.reliable, .cancel⟩,
      ⟨.reliable, .response { status := 487, method := .invite, branch := 0 }⟩, ⟨.reliable, .timer .timerD 0⟩]
    let s := doProxy { launchType := .serial } .reliable { method := .invite } ["sip:a.example.org"]
    (Machine.run step s is).gone.map (·.state) = [.terminated] ∧ AssertsHold (Machine.run step s is) :=
  ⟨by decide, asserts_hold _ _ _ _ _ (by decide)⟩

end Drachtio.Proxy
