import Drachtio.Theorems.Proxy.Redirects
import Drachtio.Theorems.Proxy.Verdicts

/-! A request that is not answered yet has a target that will be heard of: a client transaction that is active and has
    a timer to end it. A send failure that counts as sent, a transaction that is reopened and a request that cannot be
    sent again leave nobody who would go on, and neither does a selection among more transactions than can be sorted. -/

namespace Drachtio.Proxy
open ProxyCore

/-- Timer F expired for some target. -/
def Output.isExpiry : Output → Bool
  | .timerFired .timerF _ => true
  | _ => false

/-- A final response was sent, or timer F of a request other than INVITE expired. -/
def Settled (s : ProxyCore) : Prop := FinalSent s.log ∨ s.request.method ≠ .invite ∧ ∃ x ∈ s.log, x.isExpiry = true

instance (s : ProxyCore) : Decidable (Settled s) := inferInstanceAs (Decidable (_ ∨ _ ∧ ∃ x ∈ s.log, _))

/-- Active, with a timer armed that ends it. -/
def ClientTransaction.isAwaited (c : ClientTransaction) : Bool :=
  c.isActive && if c.isInviteTransaction then c.armed .timerB || c.armed .timerC else c.armed .timerF

def NotStranded (s : ProxyCore) : Prop := Settled s ∨ ∃ c ∈ s.all, c.isAwaited = true

instance (s : ProxyCore) : Decidable (NotStranded s) := inferInstanceAs (Decidable (_ ∨ ∃ c ∈ s.all, _))

/-- Sending to the target works, or another one is active. -/
def Backed (s : ProxyCore) (env : Env) (c : ClientTransaction) : Prop :=
  c.failsToSend env = false ∨ ∃ d ∈ s.clients, d.id ≠ c.id ∧ d.isActive = true

instance (s : ProxyCore) (env : Env) (c : ClientTransaction) : Decidable (Backed s env c) :=
  inferInstanceAs (Decidable (_ ∨ ∃ d ∈ s.clients, _))

/-- Responses are sent upstream, no provisional response reopens a completed transaction, none with a status below 100
    comes before an expired provisional timer, and what is sent again to the only active target is sent. -/
def Unbroken (s : ProxyCore) (env : Env) : Event → Prop
  | .response r => s.registered = true ∧ r.method = s.request.method ∧ r.method ≠ .prack → env.sendResponse = true ∧
      ∀ c ∈ s.taker r, c.state = .completed → 200 ≤ r.status
  | .timer .timerA id => ∀ c ∈ s.firing .timerA id, c.isActive = true → Backed s env c
  | .timer .timerE id => ∀ c ∈ s.firing .timerE id, c.isActive = true → Backed s env c
  | .timer .timerB id => (s.firing .timerB id).isSome = true → env.sendResponse = true
  | .timer .timerProvisional id => ∀ c ∈ s.firing .timerProvisional id, env.sendResponse = true ∧ c.sipStatus = 0
  | .info _ => s.registered = true → ∀ c ∈ s.clients.find? (·.isCallingOrProceeding), Backed s env c
  | _ => True

instance (s : ProxyCore) (env : Env) : ∀ e, Decidable (Unbroken s env e)
  | .response r => inferInstanceAs (Decidable (_ → _ ∧ ∀ c ∈ s.taker r, _))
  | .timer .timerA id => inferInstanceAs (Decidable (∀ c ∈ s.firing .timerA id, _))
  | .timer .timerE id => inferInstanceAs (Decidable (∀ c ∈ s.firing .timerE id, _))
  | .timer .timerB _ => inferInstanceAs (Decidable (_ → _))
  | .timer .timerProvisional id => inferInstanceAs (Decidable (∀ c ∈ s.firing .timerProvisional id, _ ∧ _))
  | .info _ => inferInstanceAs (Decidable (s.registered = true → ∀ c ∈ s.clients.find? (·.isCallingOrProceeding),
      Backed s env c))
  | .timer .timerC _ | .timer .timerD _ | .timer .timerF _ | .timer .timerK _ => isTrue trivial
  | .cancel | .prack _ => isTrue trivial

/-- Before the request is settled nothing breaks the search off, and where a selection may follow there are no more
    transactions to sort than the sort is defined for. -/
structure Continues (s : ProxyCore) (i : Input) : Prop where
  unbroken : Unbroken s i.env i.event
  few : MaySelect s i.event → s.clients.length + (s.followed i).length ≤ sortThreshold

instance (s : ProxyCore) (i : Input) : Decidable (Continues s i) :=
  decidable_of_iff (Unbroken s i.env i.event ∧
    (MaySelect s i.event → s.clients.length + (s.followed i).length ≤ sortThreshold))
    ⟨fun h => ⟨h.1, h.2⟩, fun h => ⟨h.unbroken, h.few⟩⟩

/-- A step with a selection leaves the vector that it has sorted, and the sort was defined for it. -/
def SortsFew (s : ProxyCore) (i : Input) : Prop :=
  ∀ states, .bestResponse states ∈ s.written i → (s.step i).clients.length ≤ sortThreshold

/-- The launch by `doProxy` leaves somebody active: in serial mode the first target does not fail to be sent, else one
    of them does not. -/
def Begins (k : Settings) (env : Env) (l : List ClientTransaction) : Prop :=
  (k.launchType = .serial → ∀ c ∈ l.head?, c.failsToSend env = false) ∧
    (k.launchType ≠ .serial → l ≠ [] → ∃ c ∈ l, c.failsToSend env = false)

instance (k : Settings) (env : Env) (l : List ClientTransaction) : Decidable (Begins k env l) :=
  inferInstanceAs (Decidable ((_ → ∀ c ∈ l.head?, _) ∧ (_ → _ → ∃ c ∈ l, _)))

/-! ### Client transactions -/

/-- A transaction of a core that is still searching. -/
structure Wakeful (c : ClientTransaction) : Prop where
  wanted : c.canceled = false
  invite : c.isActive = true → c.isInviteTransaction = true → 0 < c.timerC.queued
  other : c.isActive = true → c.isInviteTransaction = false → 0 < c.timerF.queued
  idle : c.isDone = false → c.timerD.queued = 0 ∧ c.timerK.queued = 0
  provisional : c.timerProvisional = .off ∨
    c.timerProvisional = .on ∧ c.state = .calling ∧ c.isInviteTransaction = true
  kept : c.state = .completed → c.sipStatus ≠ 0 → c.msgFinal.isSome = true

section
variable {k : Settings} {env : Env} {req : Request} {r : Response} {c d : ClientTransaction} {n : TransactionState}

theorem Wakeful.awaited (h : Wakeful c) (ha : c.isActive = true) : c.isAwaited = true := by
  unfold ClientTransaction.isAwaited
  cases hi : c.isInviteTransaction with
  | true => simp [ha, ClientTransaction.armed, ClientTransaction.timer, h.invite ha hi]
  | false => simp [ha, ClientTransaction.armed, ClientTransaction.timer, h.other ha hi]

theorem wakeful_new {id : Nat} {target : String} : Wakeful (.new env id target) where
  wanted := rfl
  invite h := by cases h
  other h := by cases h
  idle _ := ⟨rfl, rfl⟩
  provisional := Or.inl rfl
  kept h := by cases h

/-- Leaving calling ends the provisional timer. -/
theorem Wakeful.provisional_setState (h : c.timerProvisional = .off ∨
      c.timerProvisional = .on ∧ c.state = .calling ∧ c.isInviteTransaction = true)
    (hn : n = .proceeding ∨ n = .completed ∨ n = .terminated) : (c.setState k n).1.timerProvisional = .off := by
  by_cases hs : n = c.state
  · rw [ClientTransaction.setState_self hs.symm]
    rcases h with h | ⟨-, hcal, -⟩
    · exact h
    · rw [← hs] at hcal
      rcases hn with rfl | rfl | rfl <;> cases hcal
  · have ht : (c.setState k n).1.timerProvisional = ClientTransaction.enter k c.isInviteTransaction n .timerProvisional
        c.timerProvisional := ClientTransaction.setState_timer hs .timerProvisional
    rw [ht]
    rcases h with h | ⟨h, -, hi⟩
    · rw [h]
      cases c.isInviteTransaction <;> rcases hn with rfl | rfl | rfl <;> rfl
    · rw [h, hi]
      rcases hn with rfl | rfl | rfl <;> rfl

/-- A transaction that is done is wakeful if it keeps its final response. -/
theorem Wakeful.of_done (hd : c.isDone = true) (hw : c.canceled = false) (hp : c.timerProvisional = .off)
    (hk : c.state = .completed → c.sipStatus ≠ 0 → c.msgFinal.isSome = true) : Wakeful c where
  wanted := hw
  invite ha := by rw [not_active_of_done hd] at ha; cases ha
  other ha := by rw [not_active_of_done hd] at ha; cases ha
  idle h := by rw [hd] at h; cases h
  provisional := Or.inl hp
  kept := hk

theorem Wakeful.terminate (h : Wakeful c) : Wakeful (c.setState k .terminated).1 := by
  refine .of_done (by simp [ClientTransaction.isDone]) (by simp [h.wanted]) ?_ (by simp)
  exact provisional_setState h.provisional (by simp)

/-- A launch sets the timers that end the transaction. -/
theorem Wakeful.begun (h : Wakeful c) (hs : c.state = .notStarted) : Wakeful (c.begun k req) := by
  have ht : ∀ t, (c.begun k req).timer t = ClientTransaction.enter k (c.begun k req).isInviteTransaction
      (c.begun k req).state t (c.timer t) := ClientTransaction.begun_timer hs
  have hC : (c.begun k req).timerC = _ := ht .timerC
  have hF : (c.begun k req).timerF = _ := ht .timerF
  have hD : (c.begun k req).timerD = _ := ht .timerD
  have hK : (c.begun k req).timerK = _ := ht .timerK
  have hP : (c.begun k req).timerProvisional = _ := ht .timerProvisional
  have hoff : c.timerProvisional = .off := by
    rcases h.provisional with h | ⟨-, hcal, -⟩
    · exact h
    · rw [hs] at hcal
      cases hcal
  obtain ⟨hD0, hK0⟩ := h.idle (by simp [ClientTransaction.isDone, hs])
  have hkept : (c.begun k req).state ≠ .completed := by
    rw [ClientTransaction.begun_state]
    split <;> simp
  by_cases hm : req.method = .invite
  · have hi : (c.begun k req).isInviteTransaction = true := by simp [ClientTransaction.isInviteTransaction, hm]
    have hst : (c.begun k req).state = .calling := by simp [hm]
    refine ⟨by simp [h.wanted], fun _ _ => ?_, fun _ hno => ?_, fun _ => ?_, ?_, fun hc => absurd hc hkept⟩
    · rw [hC, hi, hst]
      exact Nat.succ_pos _
    · rw [hi] at hno
      cases hno
    · rw [hD, hK, hi, hst]
      exact ⟨hD0, hK0⟩
    · rw [hP, hi, hst, ClientTransaction.timer, hoff]
      by_cases hp : 0 < k.provisionalTimeout
      · exact Or.inr ⟨by rw [ClientTransaction.enter, if_pos hp]; rfl, rfl, rfl⟩
      · exact Or.inl (by rw [ClientTransaction.enter, if_neg hp])
  · have hi : (c.begun k req).isInviteTransaction = false := by simp [ClientTransaction.isInviteTransaction, hm]
    have hst : (c.begun k req).state = .trying := by simp [hm]
    refine ⟨by simp [h.wanted], fun _ hyes => ?_, fun _ _ => ?_, fun _ => ?_, ?_, fun hc => absurd hc hkept⟩
    · rw [hi] at hyes
      cases hyes
    · rw [hF, hi, hst]
      exact Nat.succ_pos _
    · rw [hD, hK, hi, hst]
      exact ⟨hD0, hK0⟩
    · rw [hP, hi, hst]
      exact Or.inl hoff

theorem Wakeful.launch (h : Wakeful c) (hs : c.state = .notStarted) : Wakeful (c.forwardRequest k env req).1.1 := by
  rw [(ClientTransaction.forwardRequest_launch_eq hs).1]
  split
  · have hstop : Wakeful ((c.begun k req).setState k .terminated).1 := (h.begun hs).terminate
    exact ⟨hstop.wanted, hstop.invite, hstop.other, hstop.idle, hstop.provisional, fun hc => by simp at hc⟩
  · exact h.begun hs

theorem Wakeful.forwardRequest (h : Wakeful c) (hs : c.state ≠ .notStarted) : Wakeful (c.forwardRequest k env req).1.1 := by
  have hc : Wakeful { c with transmitCount := c.transmitCount + 1 } :=
    ⟨h.wanted, h.invite, h.other, h.idle, h.provisional, h.kept⟩
  unfold ClientTransaction.forwardRequest
  simp only [hs, if_false]
  split
  · split
    · exact hc
    · have hstop : Wakeful (({ c with transmitCount := c.transmitCount + 1 } : ClientTransaction).setState k .terminated).1 :=
        hc.terminate
      exact ⟨hstop.wanted, hstop.invite, hstop.other, hstop.idle, hstop.provisional, fun hc => by simp at hc⟩
  · exact hc

theorem Wakeful.retransmitRequest (h : Wakeful c) (hs : c.state ≠ .notStarted) :
    Wakeful (c.retransmitRequest k env req).1 := by
  have hd : Wakeful { c with durationTimerA := 2 * c.durationTimerA } :=
    ⟨h.wanted, h.invite, h.other, h.idle, h.provisional, h.kept⟩
  have hsent : Wakeful ({ c with durationTimerA := 2 * c.durationTimerA }.forwardRequest k env req).1.1 :=
    hd.forwardRequest hs
  unfold ClientTransaction.retransmitRequest
  dsimp only
  split
  · split
    · exact ⟨hsent.wanted, hsent.invite, hsent.other, hsent.idle, hsent.provisional, hsent.kept⟩
    · exact ⟨hsent.wanted, hsent.invite, hsent.other, hsent.idle, hsent.provisional, hsent.kept⟩
  · exact hsent

/-- Proceeding keeps the timers that end the transaction. -/
theorem setState_proceeding_timer {t : TimerName} (ht : t = .timerC ∨ t = .timerD ∨ t = .timerF ∨ t = .timerK) :
    (c.setState k .proceeding).1.timer t = c.timer t := by
  by_cases hs : TransactionState.proceeding = c.state
  · rw [ClientTransaction.setState_self hs.symm]
  · rw [ClientTransaction.setState_timer hs]
    cases c.isInviteTransaction <;> rcases ht with rfl | rfl | rfl | rfl <;> rfl

theorem Wakeful.proceed (h : Wakeful c) (ha : c.isActive = true) : Wakeful (c.setState k .proceeding).1 := by
  have hC : (c.setState k .proceeding).1.timerC = c.timerC := setState_proceeding_timer (t := .timerC) (by simp)
  have hD : (c.setState k .proceeding).1.timerD = c.timerD := setState_proceeding_timer (t := .timerD) (by simp)
  have hF : (c.setState k .proceeding).1.timerF = c.timerF := setState_proceeding_timer (t := .timerF) (by simp)
  have hK : (c.setState k .proceeding).1.timerK = c.timerK := setState_proceeding_timer (t := .timerK) (by simp)
  have hnd : c.isDone = false := by
    by_contra hd
    rw [not_active_of_done (by simpa using hd)] at ha
    cases ha
  refine ⟨by simp [h.wanted], fun _ hi => ?_, fun _ hi => ?_, fun _ => ?_, Or.inl ?_, fun hs => by simp at hs⟩
  · rw [hC]
    exact h.invite ha (by simpa using hi)
  · rw [hF]
    exact h.other ha (by simpa using hi)
  · rw [hD, hK]
    exact h.idle hnd
  · exact provisional_setState h.provisional (by simp)

/-- A response other than a 2xx leaves a transaction that waits for the next one, or that keeps it. -/
theorem Wakeful.processNewResponse (h : Wakeful c) (ha : c.isActive = true) (hst : ¬(200 ≤ r.status ∧ r.status ≤ 299)) :
    Wakeful (c.processNewResponse k r).1.1 := by
  have hne : c.state ≠ .completed := fun hs => by
    simp [ClientTransaction.isActive, hs] at ha
  have hc : Wakeful { c with sipStatus := r.status } :=
    ⟨h.wanted, h.invite, h.other, h.idle, h.provisional, fun hs => absurd hs hne⟩
  have hp : Wakeful (({ c with sipStatus := r.status } : ClientTransaction).setState k .proceeding).1 := hc.proceed ha
  have hd : ({ c with sipStatus := r.status } : ClientTransaction).setState k .completed |>.1.timerProvisional = .off :=
    provisional_setState hc.provisional (by simp)
  unfold ClientTransaction.processNewResponse
  dsimp only
  split
  · split
    · exact hp
    · split
      · exact ⟨hp.wanted, fun _ _ => Nat.succ_pos _, hp.other, hp.idle, hp.provisional, fun hs => by simp at hs⟩
      · exact ⟨hp.wanted, hp.invite, hp.other, hp.idle, hp.provisional, fun hs => by simp at hs⟩
  · split
    · split
      · exact .of_done (by simp [ClientTransaction.isDone]) (by simp [h.wanted]) hd fun _ _ => rfl
      · exact .of_done (by simp [ClientTransaction.isDone]) (by simp [h.wanted]) hd fun _ _ => rfl
    · exact hc

theorem Wakeful.processResponse (h : Wakeful c) (hl : c.Launched) (hc : c.state = .completed → 200 ≤ r.status)
    (hv : (c.processResponse k env r).2 ≠ .answered) : Wakeful (c.processResponse k env r).1.1 := by
  have hlate : c.isLate r = false := by
    by_contra hlate
    have := (ClientTransaction.isLate_iff.mp (by simpa using hlate)).1
    rw [h.wanted] at this
    cases this
  by_cases hm : c.method = r.method
  · by_cases ha : c.isActive = true
    · rw [processResponse_isActive ha hm] at hv ⊢
      refine h.processNewResponse ha fun hst => ?_
      rw [ClientTransaction.processNewResponse_verdict, if_neg (by omega), if_pos hst] at hv
      exact hv rfl
    · have hns := hl.state
      cases hs : c.state with
      | terminated =>
        unfold ClientTransaction.processResponse
        rw [if_pos hs]
        exact h
      | completed =>
        rw [ClientTransaction.processResponse_repeated hs hlate hm (hc hs)]
        exact h
      | notStarted => exact absurd hs hns
      | calling => exact absurd (ClientTransaction.isActive_iff.mpr (Or.inl hs)) ha
      | trying => exact absurd (ClientTransaction.isActive_iff.mpr (Or.inr (Or.inl hs))) ha
      | proceeding => exact absurd (ClientTransaction.isActive_iff.mpr (Or.inr (Or.inr hs))) ha
  · unfold ClientTransaction.processResponse
    rw [hlate, if_neg hm]
    split
    · exact h
    · exact h

theorem Wakeful.expire (h : Wakeful c) {t : TimerName} (ht : t = .timerA ∨ t = .timerB ∨ t = .timerE) :
    Wakeful (c.expire t) := by
  rcases ht with rfl | rfl | rfl <;> exact ⟨h.wanted, h.invite, h.other, h.idle, h.provisional, h.kept⟩

/-- The timers other than C, which answers the caller. -/
theorem Wakeful.timerFires (h : Wakeful c) (hl : c.Launched) {t : TimerName} (ha : c.armed t = true) (ht : t ≠ .timerC)
    (hp : t = .timerProvisional → c.sipStatus = 0) : Wakeful (c.timerFires k env req t).1 := by
  have he : ∀ t, (c.expire t).state ≠ .notStarted := fun t => by rw [ClientTransaction.expire_state]; exact hl.state
  -- The end of a transaction, whatever timer ends it.
  have ends : ∀ {t : TimerName}, t ≠ .timerProvisional → Wakeful ((c.expire t).setState k .terminated).1 := fun {t} hne => by
    refine .of_done (by simp [ClientTransaction.isDone]) ?_ ?_ (by simp)
    · rw [ClientTransaction.setState_canceled]
      cases t <;> exact h.wanted
    · refine provisional_setState ?_ (by simp)
      cases t with
      | timerProvisional => exact absurd rfl hne
      | _ => exact h.provisional
  cases t with
  | timerA => exact (h.expire (by simp)).retransmitRequest (he _)
  | timerE => exact (h.expire (by simp)).retransmitRequest (he _)
  | timerB => exact ends (by simp)
  | timerC => exact absurd rfl ht
  | timerD => exact ends (by simp)
  | timerF => exact ends (by simp)
  | timerK => exact ends (by simp)
  | timerProvisional =>
    have hoff : (c.expire .timerProvisional).timerProvisional = .off := by
      rcases h.provisional with hp | ⟨hp, -⟩
      · have harm : 0 < c.timerProvisional.queued := of_decide_eq_true ha
        rw [hp] at harm
        cases harm
      · show c.timerProvisional.expire = .off
        rw [hp]
        rfl
    refine .of_done (by simp [ClientTransaction.timerFires, ClientTransaction.isDone]) ?_ ?_ fun _ hst => ?_
    · exact ClientTransaction.setState_canceled.trans h.wanted
    · exact provisional_setState (Or.inl hoff) (by simp)
    · have h0 : (c.timerFires k env req .timerProvisional).1.sipStatus = c.sipStatus := ClientTransaction.setState_sipStatus
      rw [h0] at hst
      exact absurd (hp rfl) hst

end

/-! ### Steps -/

/-- Not answered yet, and somebody will be heard of. -/
structure Pending (s : ProxyCore) : Prop where
  searching : s.searching = true
  active : ∃ c ∈ s.clients, c.isActive = true
  wakeful : ∀ c ∈ s.all, Wakeful c

/-- The event is a response that answers the request. -/
def Answering (s : ProxyCore) (i : Input) : Prop :=
  ∃ r c, i.event = .response r ∧ s.taker r = some c ∧ (c.processResponse s.settings i.env r).2 = .answered

/-- Wakeful, as long as the request is not answered and the search not ended. -/
def Roused (s : ProxyCore) (i : Input) (l : List Output) (c : ClientTransaction) : Prop :=
  Answering s i ∨ .searchOver ∈ l ∨ FinalSent l ∨ Wakeful c

section
variable {s t : ProxyCore} {i : Input} {r : Response} {c d : ClientTransaction} {env : Env}

theorem FinalSent.append {l w : List Output} (h : FinalSent l) : FinalSent (l ++ w) := by
  obtain ⟨n, hn, h200⟩ := h
  refine ⟨n, ?_, h200⟩
  rw [upstream, List.filterMap_append]
  exact List.mem_append_left _ hn

theorem FinalSent.extend {l l' : List Output} (h : FinalSent l) (hp : l <+: l') : FinalSent l' := by
  obtain ⟨w, rfl⟩ := hp
  exact h.append

theorem Roused.mono {l w : List Output} (h : Roused s i l c) : Roused s i (l ++ w) c := by
  rcases h with h | h | h | h
  · exact Or.inl h
  · exact Or.inr (Or.inl (List.mem_append_left _ h))
  · exact Or.inr (Or.inr (Or.inl h.append))
  · exact Or.inr (Or.inr (Or.inr h))

theorem launches_wakeful {next : Nat} {k : Settings} {req : Request} :
    Launches (fun _ c => Wakeful c) (fun _ => True) next k env req where
  mono h := h
  nil := trivial
  append _ _ := trivial
  note _ := trivial
  new _ := wakeful_new
  launch hs h := ⟨h.launch hs, trivial⟩

theorem closed_roused (h : Surveyed s) (hw : ∀ c ∈ s.all, Wakeful c) (hu : Unbroken s i.env i.event) :
    Closed (Roused s i) (fun _ => True) s i where
  mono h := h.mono
  nil := trivial
  append _ _ := trivial
  note _ := trivial
  new _ := Or.inr (Or.inr (Or.inr wakeful_new))
  launch hs h := by
    refine ⟨?_, trivial⟩
    rcases h with h | h | h | h
    · exact Or.inl h
    · exact Or.inr (Or.inl (List.mem_append_left _ h))
    · exact Or.inr (Or.inr (Or.inl h.append))
    · exact Or.inr (Or.inr (Or.inr (h.launch hs)))
  act {l c x} ha _ _ := by
    refine ⟨?_, trivial⟩
    have hwc := hw c ha.mem
    rcases h.classified c ha.mem with hd | hl
    · -- Only a PRACK reaches a transaction that was never launched, and it leaves it so.
      obtain ⟨rack, -, rfl⟩ := ha.prack_of_dormant hd
      exact Or.inr (Or.inr (Or.inr ⟨hwc.wanted, hwc.invite, hwc.other, hwc.idle, hwc.provisional, hwc.kept⟩))
    · cases ha with
      | @response r _ he hc =>
        by_cases hv : (c.processResponse s.settings i.env r).2 = .answered
        · exact Or.inl ⟨r, c, he, hc, hv⟩
        · rw [he] at hu
          obtain ⟨hreg, hm, hp, -⟩ := taker_eq_some.mp hc
          exact Or.inr (Or.inr (Or.inr (hwc.processResponse hl ((hu ⟨hreg, hm, hp⟩).2 c hc) hv)))
      | @timer n _ he hc harm =>
        by_cases hC : n = .timerC
        · refine Or.inr (Or.inr (Or.inl ⟨408, ?_, by decide⟩))
          subst hC
          rw [upstream, List.filterMap_append, upstream_timerC]
          simp
        · refine Or.inr (Or.inr (Or.inr (hwc.timerFires hl harm hC fun hp => ?_)))
          subst hp
          rw [he] at hu
          exact (hu c (firing_eq_some.mpr ⟨hc, harm⟩)).2
      | info _ _ => exact Or.inr (Or.inr (Or.inr (hwc.forwardRequest hl.state)))
      | prack _ _ =>
        exact Or.inr (Or.inr (Or.inr ⟨hwc.wanted, hwc.invite, hwc.other, hwc.idle, hwc.provisional, hwc.kept⟩))
  cancel hover _ := ⟨Or.inr (Or.inl (List.mem_append_left _ hover.1)), trivial⟩

/-- Everybody in a state of the step in which the search goes on. -/
theorem roused_wakeful (h : Surveyed s) (hw : ∀ c ∈ s.all, Wakeful c) (hu : Unbroken s i.env i.event)
    (ha : ¬Answering s i) (hc : Chain s i s t) (hs : t.searching = true) : FinalSent t.log ∨ ∀ c ∈ t.all, Wakeful c := by
  by_cases hf : FinalSent t.log
  · exact Or.inl hf
  · refine Or.inr fun c hmem => ?_
    rcases ((closed_roused h hw hu).chain (fun c hc => Or.inr (Or.inr (Or.inr (hw c hc)))) hc).clients c hmem with
      hx | hx | hx | hx
    · exact absurd hx ha
    · rw [(chain_sought h.sought (fun _ _ => trivial) hc).1.flag.mpr hx] at hs
      cases hs
    · exact absurd hx hf
    · exact hx

theorem final_of_sends {u : List Nat} {n : Nat} (hs : Sends s t u) (hn : n ∈ u) (h200 : 200 ≤ n) : FinalSent t.log := by
  obtain ⟨w, hlog, hu⟩ := hs
  refine ⟨n, ?_, h200⟩
  rw [hlog, upstream, List.filterMap_append, hu]
  exact List.mem_append_right _ hn

/-- A selection sends a final response upstream. -/
theorem final_forwardBestResponse (hf : ∀ c ∈ s.all, ∀ r, c.msgFinal = some r → 300 ≤ r.status)
    (hw : ∀ c ∈ s.all, Wakeful c) (hsend : env.sendResponse = true) : FinalSent (s.forwardBestResponse env).log := by
  have done : ∀ {t : ProxyCore}, FinalSent t.log →
      FinalSent (if t.settings.fullResponse then t.emit [.api .done] else t).log := fun {t} ht => by
    split
    · exact ht.append
    · exact ht
  unfold ProxyCore.forwardBestResponse
  dsimp only
  apply done
  split
  · exact final_of_sends (writes_emit (w := [.generateResponse 408])) (List.mem_singleton.mpr rfl) (by decide)
  · rename_i c hc
    obtain ⟨hhead, hcand⟩ := Option.filter_eq_some_iff.mp hc
    have hmem : c ∈ s.all :=
      List.mem_append_left _ ((sortBest_perm s.clients).mem_iff.mp (List.mem_of_mem_head? hhead))
    have hkept : c.msgFinal.isSome = true := by
      simp only [candidate, Bool.and_eq_true, beq_iff_eq, bne_iff_ne] at hcand
      exact (hw c hmem).kept hcand.1 hcand.2
    split
    · rename_i hnone
      rw [hnone] at hkept
      cases hkept
    · rename_i r hr
      have h300 := hf c hmem r hr
      refine final_of_sends sends_forwardResponse (n := r.status) ?_ (by omega)
      rw [if_pos hsend]
      exact List.mem_singleton.mpr rfl

/-- The test that follows every event: a final response is sent, or somebody is still being called. -/
theorem pending_finishSearch (hf : ∀ c ∈ t.all, ∀ r, c.msgFinal = some r → 300 ≤ r.status)
    (hw : FinalSent t.log ∨ ∀ c ∈ t.all, Wakeful c) (hs : t.searching = true) (hsend : env.sendResponse = true) :
    FinalSent (t.finishSearch env).log ∨ Pending (t.finishSearch env) := by
  unfold ProxyCore.finishSearch
  rcases hw with hfin | hw
  · left
    split
    · exact hfin.extend prefix_forwardBestResponse
    · exact hfin
  · split
    · exact Or.inl (final_forwardBestResponse hf hw hsend)
    · rename_i hex
      have hno : t.exhaustedAllTargets = false := by simpa [hs] using hex
      obtain ⟨d, hd, ha⟩ := exhausted_eq_false.mp hno
      exact Or.inr ⟨hs, ⟨d, hd, ClientTransaction.active_of_called ha⟩, hw⟩

theorem chain_failures (h : Surveyed s) (hc : Chain s i s t) : ∀ c ∈ t.all, ∀ r, c.msgFinal = some r → 300 ≤ r.status :=
  (closed_keepsFailure.chain h.failures hc).clients

/-- The follow-up of a response that does not answer the request. -/
theorem pending_followUp {target : String} (h : Surveyed s) (hp : Pending s) (he : i.event = .response r)
    (hu : Unbroken s i.env i.event) (ha : ¬Answering s i) (hchain : Chain s i s t) (hs : t.searching = true)
    (hsend : i.env.sendResponse = true) :
    FinalSent (t.followUp i.env r target).log ∨ Pending (t.followUp i.env r target) := by
  have roused : ∀ {v : ProxyCore}, Chain s i s v → v.searching = true → FinalSent v.log ∨ ∀ c ∈ v.all, Wakeful c :=
    fun hv hsv => roused_wakeful h hp.wakeful hu ha hv hsv
  unfold ProxyCore.followUp
  split
  · rename_i realm nonce hch
    have hsaved : ∃ r, i.event = .response r ∧ (savedChallenge r).isSome = true := ⟨r, he, by simp [hch]⟩
    have hv : Chain s i s ((t.emit [.challenge realm nonce target]).removeTerminated true) :=
      (hchain.note _ rfl rfl rfl).tail (.remove true fun _ => Or.inr hsaved)
    left
    rcases roused hv hs with hfin | hw
    · exact hfin.extend prefix_forwardBestResponse
    · exact final_forwardBestResponse (chain_failures h hv) hw hsend
  · have hv : Chain s i s (t.relaunch i.env r) := chain_relaunch hchain
    have hsv : (t.relaunch i.env r).searching = true := by rw [relaunch_searching, hs]
    exact pending_finishSearch (chain_failures h hv) (roused hv hsv) hsv hsend

theorem pending_taken (h : Surveyed s) (hp : Pending s) (he : i.event = .response r) (hc : s.taker r = some c)
    (hu : Unbroken s i.env i.event) : FinalSent (s.step i).log ∨ Pending (s.step i) := by
  obtain ⟨hreg, hm, hprack, -⟩ := taker_eq_some.mp hc
  have hu' := hu
  rw [he] at hu'
  have hsend := (hu' ⟨hreg, hm, hprack⟩).1
  rw [step_taken he hc]
  by_cases hv : (c.processResponse s.settings i.env r).2 = .answered
  · -- The 2xx goes upstream.
    left
    have hover := writes_handOver picks_upstream h.toReached he hc (v := some r.status) fun _ => rfl
    rw [if_pos ⟨hsend, Or.inr hv⟩] at hover
    refine (final_of_sends (n := r.status) hover ?_ (verdict_answered hv).1).extend prefix_followUp
    exact List.mem_singleton.mpr rfl
  · refine pending_followUp h hp he hu ?_ (chain_handOver he hc) ?_ hsend
    · rintro ⟨r', c', he', hc', hv'⟩
      cases he.symm.trans he'
      cases hc.symm.trans hc'
      exact hv hv'
    · rw [handOver_searching, hp.searching, Bool.true_and, bne_iff_ne]
      exact hv

theorem Pending.emit {w : List Output} (h : Pending s) : Pending (s.emit w) := ⟨h.searching, h.active, h.wakeful⟩

theorem pending_untaken (h : Surveyed s) (hp : Pending s) (he : i.event = .response r) (hc : s.taker r = none)
    (hu : Unbroken s i.env i.event) : FinalSent (s.step i).log ∨ Pending (s.step i) := by
  by_cases hm : r.method = s.request.method
  · rw [step_untaken he hm hc]
    split
    · rename_i hreg
      have hu' := hu
      rw [he] at hu'
      have hsend := (hu' ⟨hreg.1, hm, hreg.2⟩).1
      have hfollow : FinalSent ((s.emit [.received r]).followUp i.env r "").log ∨
          Pending ((s.emit [.received r]).followUp i.env r "") := by
        refine pending_followUp h hp he hu ?_ (.single (.note _ rfl rfl rfl)) hp.searching hsend
        rintro ⟨r', c', he', hc', -⟩
        cases he.symm.trans he'
        cases hc.symm.trans hc'
      exact hfollow.imp FinalSent.append Pending.emit
    · exact Or.inr hp.emit.emit
  · rw [step_foreign he hm]
    exact Or.inr hp

/-- A transaction that is active is in the vector. -/
theorem mem_clients_of_active (h : Surveyed s) (hc : c ∈ s.all) (ha : c.isActive = true) : c ∈ s.clients := by
  rcases List.mem_append.mp hc with hc | hc
  · exact hc
  · rw [h.parted.gone c hc] at ha
    cases ha

/-- An action that leaves its transaction active, or leaves another one so. -/
theorem active_put (h : Surveyed s) (hp : Pending s) {x : ClientTransaction × List Output} (hc : c ∈ s.all)
    (hid : x.1.id = c.id) (hx : c.isActive = true → x.1.isActive = true ∨ ∃ d ∈ s.clients, d.id ≠ c.id ∧ d.isActive = true) :
    ∃ d ∈ (s.put x).clients, d.isActive = true := by
  have other : (∃ d ∈ s.clients, d.id ≠ c.id ∧ d.isActive = true) → ∃ d ∈ (s.put x).clients, d.isActive = true := by
    rintro ⟨d, hd, hne, hda⟩
    exact ⟨d, mem_clients_put hd (by rw [hid]; exact hne), hda⟩
  by_cases ha : c.isActive = true
  · rcases hx ha with hxa | hd
    · exact ⟨x.1, mem_clients_put_self (mem_clients_of_active h hc ha) hid, hxa⟩
    · exact other hd
  · obtain ⟨d, hd, hda⟩ := hp.active
    refine other ⟨d, hd, fun hdc => ha ?_, hda⟩
    rw [← h.keyed.eq_of_id (List.mem_append_left _ hd) hc hdc]
    exact hda

theorem pending_fired {n : TimerName} {id : Nat} (h : Surveyed s) (hp : Pending s) (he : i.event = .timer n id)
    (hc : s.firing n id = some c) (hu : Unbroken s i.env i.event) : Settled (s.step i) ∨ Pending (s.step i) := by
  obtain ⟨hfind, harm⟩ := firing_eq_some.mp hc
  obtain ⟨hmem, rfl, -⟩ := firing_spec hc
  have ha : Acts s i c (c.timerFires s.settings i.env s.request n) := .timer he hfind harm
  have hl : c.Launched := (h.classified c hmem).resolve_left fun hd => by simp [hd.not_armed] at harm
  have hfire : Chain s i s (s.emit [.timerFired n c.id]) := .single (.note _ rfl rfl rfl)
  have hput : Chain s i s ((s.emit [.timerFired n c.id]).put (c.timerFires s.settings i.env s.request n)) :=
    hfire.tail (.act ⟨rfl, rfl⟩ ha)
  have roused : ∀ {v : ProxyCore}, Chain s i s v → v.searching = true → FinalSent v.log ∨ ∀ c ∈ v.all, Wakeful c :=
    fun hv hsv => roused_wakeful h hp.wakeful hu (by rintro ⟨r, c', he', -⟩; cases he.symm.trans he') hv hsv
  have hstate : (c.timerFires s.settings i.env s.request n).1.state = _ := ClientTransaction.timerFires_state hl.state n
  have hreq := step_request (s := s) (i := i)
  have settle : FinalSent (s.step i).log ∨ Pending (s.step i) → Settled (s.step i) ∨ Pending (s.step i) := Or.imp_left Or.inl
  rw [step_fired he hc] at hreq settle ⊢
  rw [he] at hu
  -- Timers A and E: the transaction stays active, or another one is.
  have again : (n = .timerA ∨ n = .timerE) → (c.isActive = true → Backed s i.env c) →
      FinalSent ((s.emit [.timerFired n c.id]).put (c.timerFires s.settings i.env s.request n)).log ∨
        Pending ((s.emit [.timerFired n c.id]).put (c.timerFires s.settings i.env s.request n)) := fun hn hb => by
    refine (roused hput hp.searching).imp_right fun hw => ⟨hp.searching, ?_, hw⟩
    refine active_put h hp hmem (by simp) fun hact => (hb hact).imp_left fun hsent => ?_
    rw [ClientTransaction.isActive_iff, hstate]
    rcases hn with rfl | rfl
    · simpa [hsent] using ClientTransaction.isActive_iff.mp hact
    · simpa [hsent] using ClientTransaction.isActive_iff.mp hact
  -- Timers D and K: the transaction is done, so another one is active.
  have ends : (n = .timerD ∨ n = .timerK) → FinalSent (((s.emit [.timerFired n c.id]).put
        (c.timerFires s.settings i.env s.request n)).removeTerminated false).log ∨
      Pending (((s.emit [.timerFired n c.id]).put (c.timerFires s.settings i.env s.request n)).removeTerminated false) :=
    fun hn => by
      refine (roused (hput.tail .prune) hp.searching).imp_right fun hw => ⟨hp.searching, ?_, hw⟩
      obtain ⟨d, hd, hda⟩ := active_put (x := c.timerFires s.settings i.env s.request n) h hp hmem (by simp) fun hact => by
        have hnd : c.isDone = false := by
          by_contra hdone
          rw [not_active_of_done (by simpa using hdone)] at hact
          cases hact
        have hidle := (hp.wakeful c hmem).idle hnd
        have hq : 0 < (c.timer n).queued := of_decide_eq_true harm
        rcases hn with rfl | rfl
        · exact absurd hidle.1 (Nat.ne_of_gt hq)
        · exact absurd hidle.2 (Nat.ne_of_gt hq)
      refine ⟨d, mem_clients_removeTerminated hd fun hst => ?_, hda⟩
      simp [ClientTransaction.isActive, hst] at hda
  cases n with
  | timerA => exact settle (again (Or.inl rfl) (hu c hc))
  | timerE => exact settle (again (Or.inr rfl) (hu c hc))
  | timerD => exact settle (ends (Or.inl rfl))
  | timerK => exact settle (ends (Or.inr rfl))
  | timerB =>
    have hv := hput.tail .prune
    exact settle (pending_finishSearch (chain_failures h hv) (roused hv hp.searching) hp.searching (hu (by simp [hc])))
  | timerC =>
    have hsends : Sends (s.emit [.timerFired .timerC c.id])
        ((s.emit [.timerFired .timerC c.id]).put (c.timerFires s.settings i.env s.request .timerC)) _ := writes_put
    rw [upstream_timerC] at hsends
    have hfin := final_of_sends hsends (n := 408) (by simp) (by decide)
    exact settle (Or.inl (hfin.extend (prefix_finishSearch (s := ((s.emit [.timerFired .timerC c.id]).put
      (c.timerFires s.settings i.env s.request .timerC)).removeTerminated false))))
  | timerF =>
    refine Or.inl (Or.inr ⟨?_, .timerFired .timerF c.id, ?_, rfl⟩)
    · rw [hreq]
      rcases h.kinds c hmem with hd | ⟨-, hk⟩
      · simp [hd.not_armed] at harm
      · have hi := hk.timers .timerF harm
        rcases h.typed c hmem with hd | ⟨-, hmeth⟩
        · exact absurd hl.branch (by simp [hd.branch])
        · rw [← hmeth]
          simpa [ClientTransaction.isInviteTransaction, TimerName.ofInvite] using hi
    · exact List.mem_append_left _ (List.mem_append_right _ (List.mem_singleton.mpr rfl))
  | timerProvisional =>
    have hv := (((hfire.tail (.mark s.server.canceled)).tail (.act ⟨rfl, rfl⟩ ha)).tail .prune).tail .start
    have hsv : ((((({ s.emit [.timerFired .timerProvisional c.id] with canceled := true }).put
        (c.timerFires s.settings i.env s.request .timerProvisional)).removeTerminated false).startRequests
        i.env).1).searching =
        true := by
      rw [startRequests_searching]
      exact hp.searching
    exact settle (pending_finishSearch (chain_failures h hv) (roused hv hsv) hsv (hu c hc).1)

/-- A request of the caller that goes to a target. -/
theorem pending_put (h : Surveyed s) (hp : Pending s) (hu : Unbroken s i.env i.event) (he : ∀ r, i.event ≠ .response r)
    {x : ClientTransaction × List Output} (ha : Acts s i c x)
    (hx : c.isActive = true → x.1.isActive = true ∨ ∃ d ∈ s.clients, d.id ≠ c.id ∧ d.isActive = true) :
    FinalSent (s.put x).log ∨ Pending (s.put x) := by
  have hnot : ¬Answering s i := by
    rintro ⟨r, c', he', -⟩
    exact he r he'
  refine (roused_wakeful h hp.wakeful hu hnot (.single (.act ⟨rfl, rfl⟩ ha)) hp.searching).imp_right fun hw => ?_
  exact ⟨hp.searching, active_put h hp ha.mem ha.id_eq hx, hw⟩

theorem Settled.step (h : Settled s) (i : Input) : Settled (s.step i) := by
  rcases h with h | ⟨hm, x, hx, hexp⟩
  · refine Or.inl ?_
    rw [step_log]
    exact h.append
  · refine Or.inr ⟨by rw [step_request]; exact hm, x, ?_, hexp⟩
    rw [step_log]
    exact List.mem_append_left _ hx

theorem step_pending (h : Surveyed s) (hp : Pending s) (hu : Unbroken s i.env i.event) :
    Settled (s.step i) ∨ Pending (s.step i) := by
  cases he : i.event with
  | response r =>
    cases hc : s.taker r with
    | some c => exact (pending_taken h hp he hc hu).imp_left Or.inl
    | none => exact (pending_untaken h hp he hc hu).imp_left Or.inl
  | timer n id =>
    cases hc : s.firing n id with
    | some c => exact pending_fired h hp he hc hu
    | none =>
      rw [step_unfired he hc]
      exact Or.inr hp
  | cancel =>
    unfold ProxyCore.step
    rw [he]
    dsimp only
    split
    · refine Or.inl (Or.inl ?_)
      have hsends : Sends s ((({ s with canceled := true, server.canceled := true } : ProxyCore).emit
          [.okToCancel]).generateResponse 487) [487] := ⟨[.okToCancel, .generateResponse 487], by simp, rfl⟩
      have hfin := final_of_sends hsends (n := 487) (by simp) (by decide)
      refine hfin.extend ?_
      rw [ProxyCore.cancel, cancelOutstandingRequests_log]
      exact List.prefix_append _ _
    · exact Or.inr hp
  | info req =>
    have hput : ∀ c, s.registered = true → s.clients.find? (·.isCallingOrProceeding) = some c →
        FinalSent (s.put (c.forwardRequest s.settings i.env req).1).log ∨
          Pending (s.put (c.forwardRequest s.settings i.env req).1) := fun c hreg hc => by
      have ha : Acts s i c (c.forwardRequest s.settings i.env req).1 := .info he hc
      have hl : c.Launched := (h.classified c ha.mem).resolve_left fun hd => by
        have hcalled := List.find?_some hc
        simp [hd.not_callingOrProceeding] at hcalled
      have hb : Backed s i.env c := by
        rw [he] at hu
        exact hu hreg c hc
      refine pending_put h hp hu (by simp [he]) ha fun hact => hb.imp_left fun hsent => ?_
      rw [ClientTransaction.isActive_iff, ClientTransaction.forwardRequest_state hl.state, hsent]
      exact ClientTransaction.isActive_iff.mp hact
    unfold ProxyCore.step
    rw [he]
    dsimp only
    split
    · rename_i hreg
      unfold ProxyCore.forwardRequest
      split
      · exact Or.inr hp
      · rename_i c hc
        exact (hput c hreg hc).imp_left Or.inl
    · exact Or.inr hp
  | prack rack =>
    unfold ProxyCore.step
    rw [he]
    dsimp only
    split
    · unfold ProxyCore.forwardPrack
      dsimp only
      split
      · exact Or.inr hp
      · rename_i c hc
        have ha : Acts s i c (c.forwardPrack i.env rack) := .prack he hc
        exact (pending_put h hp hu (by simp [he]) ha fun hact => Or.inl hact).imp_left Or.inl
    · exact Or.inr hp

/-! ### Selections -/

/-- Nobody comes back into the vector. -/
theorem Micro.gone_length {s₀ : ProxyCore} (h : Micro s₀ i s t) : s.gone.length ≤ t.gone.length := by
  cases h with
  | note | best | mark | endSearch | cancelOutstanding | sort => exact le_rfl
  | forward => rw [forwardResponse_gone]
  | act => exact (List.length_map _).ge
  | remove b =>
    show s.gone.length ≤ (s.gone ++ _).length
    rw [List.length_append]
    exact Nat.le_add_right _ _
  | start =>
    unfold startRequests
    split <;> exact le_rfl
  | add =>
    unfold addClientTransactions
    split <;> exact le_rfl

/-- A step makes the vector longer by the targets that it follows at most. -/
theorem step_clients_length (hr : Reached s) (i : Input) :
    (s.step i).clients.length ≤ s.clients.length + (s.followed i).length := by
  have hall : (s.step i).targets.length = s.targets.length + (s.followed i).length := by
    rw [← List.length_append]
    exact (names_step hr i).length_eq
  have hgone : s.gone.length ≤ (s.step i).gone.length :=
    Relation.ReflTransGen.rec (motive := fun t _ => s.gone.length ≤ t.gone.length) le_rfl
      (fun _ hm ih => ih.trans hm.gone_length) (step_chain s i)
  simp only [targets, all, List.length_map, List.length_append] at hall
  omega

theorem step_sortsFew (hr : Reached s) (hc : Continues s i) : SortsFew s i := by
  intro states hmem
  by_cases hq : MaySelect s i.event
  · exact (step_clients_length hr i).trans (hc.few hq)
  · have hselected : states ∈ (s.written i).filterMap Output.selection := List.mem_filterMap.mpr ⟨_, hmem, rfl⟩
    rw [(writes_unselecting hr hq).written] at hselected
    exact nomatch hselected

/-! ### Runs -/

/-- A launch that begins leaves somebody active. -/
theorem launch_begins {k : Settings} {req : Request} {l : List ClientTransaction} (hne : l ≠ [])
    (hall : ∀ c ∈ l, c.state = .notStarted) (hb : Begins k env l) : ∃ d ∈ (launch k env req l).1, d.isActive = true := by
  by_cases hk : k.launchType = .serial
  · cases l with
    | nil => exact absurd rfl hne
    | cons c l =>
      have hs := hall c List.mem_cons_self
      refine ⟨(c.forwardRequest k env req).1.1, ?_, launched_active hs (hb.1 hk c rfl)⟩
      unfold launch
      rw [if_pos hs]
      dsimp only
      split <;> exact List.mem_cons_self
  · obtain ⟨c, hc, hf⟩ := hb.2 hk hne
    refine ⟨(c.forwardRequest k env req).1.1, ?_, launched_active (hall c hc) hf⟩
    clear hb hne
    induction l with
    | nil => cases hc
    | cons d l ih =>
      unfold launch
      rw [if_pos (hall d List.mem_cons_self)]
      dsimp only
      rw [if_neg fun h => hk h.2]
      rcases List.mem_cons.mp hc with rfl | hc
      · exact List.mem_cons_self
      · exact List.mem_cons_of_mem _ (ih (fun e he => hall e (List.mem_cons_of_mem _ he)) hc)

theorem doProxy_pending {k : Settings} {req : Request} {destinations : List String}
    (h : req.maxForwards = some 0 ∨ Begins k env (newClients env 0 destinations)) :
    Settled (doProxy k env req destinations) ∨ Pending (doProxy k env req destinations) := by
  have hw : ∀ c ∈ (doProxy k env req destinations).all, Wakeful c := launches_wakeful.doProxy.clients
  have hs : (doProxy k env req destinations).searching = true :=
    doProxy_induction (P := fun s => s.searching = true) rfl (fun h => by rw [startRequests_searching]; exact h)
      (fun _ _ _ h => h) (fun _ h => h)
  have settled : ∀ {t : ProxyCore} {n : Nat} {w : List Output}, t.log = w ++ [.reply n] → 200 ≤ n → Settled t :=
    fun {t n w} hlog hn => by
      refine Or.inl ⟨n, ?_, hn⟩
      rw [hlog, upstream, List.filterMap_append]
      exact List.mem_append_right _ (List.mem_singleton.mpr rfl)
  have hcases : Settled (doProxy k env req destinations) ∨
      ∃ d ∈ (doProxy k env req destinations).clients, d.isActive = true := by
    unfold ProxyCore.doProxy
    dsimp only
    split
    · refine Or.inl (settled (n := 483) (w := [.api (.nok "Rejected with 483 Too Many Hops due to Max-Forwards value of 0")])
        ?_ (by decide))
      rfl
    · rename_i hmax
      split
      · refine Or.inl (settled (n := 500) (w := ((addProxy k env req destinations).startRequests env).1.log ++
          [.api (.nok "error proxying request to ")]) ?_ (by decide))
        simp [removeProxy]
      · rename_i hcount
        right
        have hne : newClients env 0 destinations ≠ [] := fun hnil => by
          refine hcount ?_
          unfold ProxyCore.startRequests addProxy
          rw [hnil]
          rfl
        have hall : ∀ c ∈ newClients env 0 destinations, c.state = .notStarted := fun c hc => by
          obtain ⟨id, target, -, rfl⟩ := mem_newClients hc
          rfl
        have hstart : ∃ d ∈ ((addProxy k env req destinations).startRequests env).1.clients, d.isActive = true :=
          launch_begins hne hall (h.resolve_left hmax)
        split
        · exact hstart
        · exact hstart
  exact hcases.imp_right fun hact => ⟨hs, hact, hw⟩

theorem notStranded_of (h : Settled s ∨ Pending s) : NotStranded s := by
  rcases h with h | h
  · exact Or.inl h
  · obtain ⟨c, hc, ha⟩ := h.active
    exact Or.inr ⟨c, List.mem_append_left _ hc, (h.wakeful c (List.mem_append_left _ hc)).awaited ha⟩

end

end Drachtio.Proxy
