import Drachtio.Theorems.Proxy.Search

/-! Client transactions move forward. The states are ordered from not_started to terminated; the one documented way
    back is an INVITE that was canceled in calling and gets its first response late. A provisional response that
    reaches a completed transaction is another one, which the guard for repeated final responses does not stop. -/

namespace Drachtio.Proxy
open ProxyCore

/-- The order of the states; calling and trying are the INVITE and the other form of one state. -/
def TransactionState.rank : TransactionState → Nat
  | .notStarted => 0
  | .trying | .calling => 1
  | .proceeding => 2
  | .completed => 3
  | .terminated => 4

/-- An INVITE that was canceled while it was in calling and has had no response so far. -/
structure CanceledInCalling (s : ProxyCore) (c : ClientTransaction) : Prop where
  invite : c.isInviteTransaction = true
  canceled : c.canceled = true
  unanswered : c.state = .completed ∧ c.sipStatus = 0
  history : .stateChange c.id .calling .completed ∈ s.log ∧ .cancelOutstanding ∈ s.log

/-- Every change of state in `w` goes forward, or takes a canceled INVITE back and cancels it at once. -/
def MovesForward (s : ProxyCore) (w : List Output) : Prop :=
  ∀ a b id old new, w = a ++ .stateChange id old new :: b → old.rank < new.rank ∨
    old = .completed ∧ new = .proceeding ∧ (∃ c ∈ s.clients, c.id = id ∧ CanceledInCalling s c) ∧
      ∃ b', b = .sendCancel id :: b'

/-- The step with input `i` does not take progress back. -/
structure Monotone (s : ProxyCore) (i : Input) : Prop where
  forward : MovesForward s (s.written i)
  /-- A provisional response leaves the status of a final one alone. -/
  status : ∀ r, i.event = .response r → 100 ≤ r.status ∧ r.status ≤ 199 → ∀ c ∈ s.all, 200 ≤ c.sipStatus →
    ∀ d ∈ (s.step i).all, d.id = c.id → d.sipStatus = c.sipStatus
  /-- A provisional response never leads to a second best response. -/
  best : ∀ r, i.event = .response r → 100 ≤ r.status ∧ r.status ≤ 199 → (∃ states, .bestResponse states ∈ s.log) →
    ∀ states, .bestResponse states ∉ s.written i

/-- No response below 200 is handed to a completed transaction, but for the late first response of a canceled
    one, and then the CANCEL can be sent. -/
def Orderly (s : ProxyCore) (env : Env) : Event → Prop
  | .response r => ∀ c ∈ s.taker r, c.state = .completed →
      (r.status < 200 → c.isLate r = true) ∧ (c.isLate r = true → env.sendCancel c.id = true)
  | _ => True

instance (s : ProxyCore) (env : Env) : ∀ e, Decidable (Orderly s env e)
  | .response r => inferInstanceAs (Decidable (∀ c ∈ s.taker r, _ → _))
  | .timer _ _ | .cancel | .info _ | .prack _ => isTrue trivial

/-! ### Lists of changes -/

section
variable {s : ProxyCore} {w w' : List Output}

theorem MovesForward.append (h : MovesForward s w) (h' : MovesForward s w') : MovesForward s (w ++ w') := by
  intro a b id old new heq
  rcases List.append_eq_append_iff.mp heq with ⟨a', ha, hw'⟩ | ⟨c', hw, hb⟩
  · rcases h' a' b id old new hw' with hr | ⟨h1, h2, h3, h4⟩
    · exact Or.inl hr
    · exact Or.inr ⟨h1, h2, h3, h4⟩
  · cases c' with
    | nil => exact h' [] b id old new hb.symm
    | cons y c' =>
      obtain ⟨rfl, rfl⟩ := List.cons.inj hb
      rcases h a c' id old new hw with hr | ⟨h1, h2, h3, b', rfl⟩
      · exact Or.inl hr
      · exact Or.inr ⟨h1, h2, h3, b' ++ w', rfl⟩

theorem MovesForward.of_forall (h : ∀ id old new, .stateChange id old new ∈ w → old.rank < new.rank) :
    MovesForward s w := by
  intro a b id old new heq
  exact Or.inl (h id old new (by simp [heq]))

end

/-! ### What a client transaction satisfies in orderly runs -/

/-- The status, the provisional timer and the canceled flag fit the state. -/
structure Steady (l : List Output) (c : ClientTransaction) : Prop where
  final : 200 ≤ c.sipStatus → c.state = .completed ∨ c.state = .terminated
  provisional : c.timerProvisional = .off ∨
    c.timerProvisional = .on ∧ c.isInviteTransaction = true ∧ c.state = .calling
  early : c.state = .notStarted ∨ c.state = .calling → c.canceled = false
  late : c.state = .completed → c.canceled = true → c.sipStatus = 0 →
    .stateChange c.id .calling .completed ∈ l ∧ .cancelOutstanding ∈ l

section
variable {k : Settings} {env : Env} {req : Request} {r : Response} {c : ClientTransaction} {l w : List Output}
  {n : TransactionState}

theorem Steady.mono (h : Steady l c) : Steady (l ++ w) c where
  final := h.final
  provisional := h.provisional
  early := h.early
  late h₁ h₂ h₃ := (h.late h₁ h₂ h₃).imp (List.mem_append_left _) (List.mem_append_left _)

/-- Leaving calling removes the provisional timer. -/
theorem timerProvisional_setState (h : c.timerProvisional = .off ∨
    c.timerProvisional = .on ∧ c.isInviteTransaction = true ∧ c.state = .calling)
    (hn : n = .proceeding ∨ n = .completed ∨ n = .terminated) : (c.setState k n).1.timerProvisional = .off := by
  have hon : Timer.on.removeTimer = .off := rfl
  have hoff : Timer.off.removeTimer = .off := rfl
  rcases h with h | ⟨h, hi, hs⟩
  · unfold ClientTransaction.setState
    split
    · exact h
    · dsimp only
      split <;> rcases hn with rfl | rfl | rfl <;> simp [ClientTransaction.enterInvite,
        ClientTransaction.enterNonInvite, h, hoff]
  · unfold ClientTransaction.setState
    rw [if_neg (by rcases hn with rfl | rfl | rfl <;> simp [hs])]
    simp only [hi, if_true]
    rcases hn with rfl | rfl | rfl <;> simp [ClientTransaction.enterInvite, h, hon]

theorem Steady.setState (h : c.timerProvisional = .off ∨
    c.timerProvisional = .on ∧ c.isInviteTransaction = true ∧ c.state = .calling)
    (hn : n = .proceeding ∨ n = .completed ∨ n = .terminated) (hf : 200 ≤ c.sipStatus → n ≠ .proceeding)
    (hl : n = .completed → c.canceled = true → c.sipStatus = 0 →
      .stateChange c.id .calling .completed ∈ l ∧ .cancelOutstanding ∈ l) : Steady l (c.setState k n).1 where
  final hst := by
    rw [ClientTransaction.setState_sipStatus] at hst
    rw [ClientTransaction.setState_state]
    exact hn.resolve_left (hf hst)
  provisional := Or.inl (timerProvisional_setState h hn)
  early hst := by
    rw [ClientTransaction.setState_state] at hst
    rcases hn with rfl | rfl | rfl <;> simp at hst
  late h₁ h₂ h₃ := by
    rw [ClientTransaction.setState_state] at h₁
    rw [ClientTransaction.setState_canceled] at h₂
    rw [ClientTransaction.setState_sipStatus] at h₃
    rw [ClientTransaction.setState_id]
    exact hl h₁ h₂ h₃

theorem Steady.terminate (h : Steady l c) : Steady l (c.setState k .terminated).1 :=
  .setState h.provisional (by simp) (by simp) (by simp)

theorem Steady.forwardRequest (h : Steady l c) (hs : c.state ≠ .notStarted) :
    Steady l (c.forwardRequest k env req).1.1 := by
  unfold ClientTransaction.forwardRequest
  simp only [hs, if_false]
  split
  · split
    · exact ⟨h.final, h.provisional, h.early, h.late⟩
    · have ht : Steady l ({ c with transmitCount := c.transmitCount + 1 }.setState k .terminated).1 :=
        .setState h.provisional (by simp) (by simp) (by simp)
      exact ⟨fun _ => Or.inr (by simp), ht.provisional, by simp, by simp⟩
  · exact ⟨h.final, h.provisional, h.early, h.late⟩

theorem Steady.retransmitRequest (h : Steady l c) (hs : c.state ≠ .notStarted) :
    Steady l (c.retransmitRequest k env req).1 := by
  have hd : Steady l { c with durationTimerA := 2 * c.durationTimerA } := ⟨h.final, h.provisional, h.early, h.late⟩
  have hf : Steady l ({ c with durationTimerA := 2 * c.durationTimerA }.forwardRequest k env req).1.1 :=
    hd.forwardRequest hs
  unfold ClientTransaction.retransmitRequest
  dsimp only
  split
  · split <;> exact ⟨hf.final, hf.provisional, hf.early, hf.late⟩
  · exact hf

theorem Steady.launch (h : Steady l c) (hs : c.state = .notStarted) : Steady l (c.forwardRequest k env req).1.1 := by
  have hoff : c.timerProvisional = .off := by
    rcases h.provisional with hp | ⟨-, -, hp⟩
    · exact hp
    · simp [hs] at hp
  have hst : ¬200 ≤ c.sipStatus := fun hst => by simpa [hs] using h.final hst
  have hcan : c.canceled = false := h.early (Or.inl hs)
  have hb : Steady l (c.begun k req) := by
    refine ⟨fun h' => absurd (by simpa using h') hst, ?_, by simp [hcan], by simp [hcan]⟩
    have hadd : Timer.off.addTimer = .on := rfl
    by_cases hm : req.method = .invite
    · have hi : (c.begun k req).isInviteTransaction = true := by simp [ClientTransaction.isInviteTransaction, hm]
      by_cases hp : 0 < k.provisionalTimeout
      · refine Or.inr ⟨?_, hi, by simp [hm]⟩
        simp [ClientTransaction.begun, ClientTransaction.setState, hs, hm, ClientTransaction.isInviteTransaction,
          ClientTransaction.enterInvite, hp, hoff, hadd]
      · refine Or.inl ?_
        simp [ClientTransaction.begun, ClientTransaction.setState, hs, hm, ClientTransaction.isInviteTransaction,
          ClientTransaction.enterInvite, hp, hoff]
    · refine Or.inl ?_
      simp [ClientTransaction.begun, ClientTransaction.setState, hs, hm, ClientTransaction.isInviteTransaction,
        ClientTransaction.enterNonInvite, hoff]
  rw [(ClientTransaction.forwardRequest_launch_eq hs).1]
  split
  · have ht : Steady l ((c.begun k req).setState k .terminated).1 := hb.terminate
    exact ⟨by simp, ht.provisional, by simp, by simp⟩
  · exact hb

theorem Steady.disarmed (h : Steady l c) : Steady l c.disarmed := ⟨h.final, h.provisional, h.early, h.late⟩

theorem Steady.cancelRequest (h : Steady l c) (hl : c.state = .calling → .cancelOutstanding ∈ l) :
    Steady (l ++ (c.cancelRequest k env).2) (c.cancelRequest k env).1 := by
  rcases ClientTransaction.cancelRequest_cases k env c with ⟨hs, he⟩ | ⟨-, he⟩ | ⟨hs, he⟩ | ⟨-, he⟩ <;> rw [he]
  · have hst : c.disarmed.state = .calling := hs
    rw [ClientTransaction.setState_outputs (by simp) (by simp), hst]
    have hist : .stateChange c.id .calling .completed ∈ l ++ [.stateChange c.id .calling .completed] ∧
        .cancelOutstanding ∈ l ++ [.stateChange c.id .calling .completed] :=
      ⟨by simp, List.mem_append_left _ (hl hs)⟩
    have hm : Steady (l ++ [.stateChange c.id .calling .completed]) (c.disarmed.setState k .completed).1 :=
      .setState h.provisional (by simp) (by simp) fun _ _ _ => hist
    exact ⟨hm.final, hm.provisional, by simp, fun _ _ _ => by simpa using hist⟩
  · exact Steady.mono (.setState h.provisional (by simp) (by simp) (by simp))
  · split
    · exact Steady.mono ⟨h.final, h.provisional, by simp [ClientTransaction.disarmed, hs],
        by simp [ClientTransaction.disarmed, hs]⟩
    · exact h.disarmed.mono
  · exact h.disarmed.mono

theorem Steady.processNewResponse (h : Steady l c) (hc : c.state = .completed → 200 ≤ r.status) :
    Steady l (c.processNewResponse k r).1.1 := by
  unfold ClientTransaction.processNewResponse
  dsimp only
  split
  · rename_i hst
    have hm : Steady l ({ c with sipStatus := r.status }.setState k .proceeding).1 :=
      .setState h.provisional (by simp) (fun hst' => by simp at hst'; omega) (by simp)
    split
    · exact hm
    · split <;> exact ⟨hm.final, hm.provisional, hm.early, hm.late⟩
  · split
    · rename_i hst
      split
      · have hm : Steady l ({ c with sipStatus := r.status }.setState k .terminated).1 :=
          .setState h.provisional (by simp) (by simp) (by simp)
        exact ⟨hm.final, hm.provisional, hm.early, hm.late⟩
      · exact .setState h.provisional (by simp) (by simp) fun _ _ h0 => by simp at h0; omega
    · split
      · have hm : Steady l ({ c with sipStatus := r.status }.setState k .completed).1 :=
          .setState h.provisional (by simp) (by simp) fun _ _ h0 => by simp at h0; omega
        split <;> exact ⟨hm.final, hm.provisional, hm.early, hm.late⟩
      · rename_i h1 h2 h3
        refine ⟨fun hst => by simp at hst; omega, h.provisional, h.early, fun hcomp _ _ => ?_⟩
        have := hc hcomp
        omega

theorem Steady.processResponse (h : Steady l c) (hc : c.state = .completed → r.status < 200 → c.isLate r = true) :
    Steady (l ++ (c.processResponse k env r).1.2) (c.processResponse k env r).1.1 := by
  unfold ClientTransaction.processResponse
  split
  · exact h.mono
  · split
    · rename_i hlate
      have h0 : c.sipStatus = 0 := (ClientTransaction.isLate_iff.mp hlate).2.2.1
      have hm : Steady l (c.setState k .proceeding).1 :=
        .setState h.provisional (by simp) (fun hst => by omega) (by simp)
      dsimp only
      have hcan : Steady (l ++ .lateResponse c.id :: (c.setState k .proceeding).2 ++
          ((c.setState k .proceeding).1.cancelRequest k env).2) ((c.setState k .proceeding).1.cancelRequest k env).1 :=
        hm.mono.cancelRequest (by simp)
      simpa using hcan
    · rename_i hnl
      split
      · split
        · exact h.mono
        · rename_i hrep
          refine (h.processNewResponse fun hcomp => ?_).mono
          by_contra hlt
          exact hnl (hc hcomp (by omega))
      · exact h.mono

theorem Steady.timerFires (h : Steady l c) (hs : c.state ≠ .notStarted) {t : TimerName} (ha : c.armed t = true) :
    Steady l (c.timerFires k env req t).1 := by
  have he : ∀ t, t ≠ .timerProvisional → Steady l (c.expire t) := fun t ht => by
    cases t
    case timerProvisional => exact absurd rfl ht
    all_goals exact ⟨h.final, h.provisional, h.early, h.late⟩
  cases t with
  | timerA => exact (he _ (by simp)).retransmitRequest (by simpa using hs)
  | timerE => exact (he _ (by simp)).retransmitRequest (by simpa using hs)
  | timerC =>
    simp only [ClientTransaction.timerFires]
    split
    · rename_i hp
      have hc : Steady _ ((c.expire .timerC).cancelRequest k env).1 := (he .timerC (by simp)).cancelRequest (by simp [hp])
      have : (((c.expire .timerC).cancelRequest k env).1.timerProvisional = .off) := by
        rcases hc.provisional with hc | ⟨-, -, hc⟩
        · exact hc
        · rw [(ClientTransaction.cancelRequest_proceeding (by simpa using hp)).1] at hc
          simp at hc
      exact .setState (Or.inl this) (by simp) (by simp) (by simp)
    · exact (he .timerC (by simp)).terminate
  | timerProvisional =>
    -- It is armed in calling only, and there the transaction is not canceled.
    rcases h.provisional with hp | ⟨hp, hi, hcall⟩
    · simp [ClientTransaction.armed, ClientTransaction.timer, hp, Timer.off] at ha
    · have hcan := h.early (Or.inr hcall)
      refine .setState (Or.inl ?_) (by simp) (by simp) fun _ hc => ?_
      · simp [ClientTransaction.expire, hp]
        rfl
      · rw [show (c.expire .timerProvisional).canceled = c.canceled from rfl, hcan] at hc
        simp at hc
  | timerB => exact (he .timerB (by simp)).terminate
  | timerD => exact (he .timerD (by simp)).terminate
  | timerF => exact (he .timerF (by simp)).terminate
  | timerK => exact (he .timerK (by simp)).terminate

end

/-! ### Steps -/

theorem launches_steady {s : ProxyCore} {next : Nat} {k : Settings} {env : Env} {req : Request} :
    Launches Steady (MovesForward s) next k env req where
  mono h := h.mono
  nil := .of_forall (by simp)
  append := MovesForward.append
  note hx := .of_forall fun _ _ _ hm => by
    rw [← List.mem_singleton.mp hm] at hx
    simp [Output.isNote] at hx
  new _ := ⟨by simp [ClientTransaction.new], Or.inl rfl, fun _ => rfl, by simp [ClientTransaction.new]⟩
  launch hs h := by
    refine ⟨(h.launch hs).mono, .of_forall fun id old new hm => ?_⟩
    rcases ClientTransaction.mem_forwardRequest_launch hs hm with ⟨a, hx, -⟩ | ⟨n, hn, hx | hx⟩ | ⟨m, hx⟩
    · cases hx
    · cases hx
      rcases hn with rfl | rfl <;> decide
    · cases hx
      rcases hn with rfl | rfl <;> decide
    · cases hx

section
variable {s : ProxyCore} {i : Input} {c : ClientTransaction}

theorem rank_lt_terminated {n : TransactionState} (h : n ≠ .terminated) : n.rank < TransactionState.terminated.rank := by
  cases n <;> simp_all [TransactionState.rank]

/-- The changes of state that a response makes. -/
theorem forward_processResponse {r : Response} (hs : Steady s.log c) (hmem : c ∈ s.clients) (hl : c.Launched)
    (ho : c.state = .completed → (r.status < 200 → c.isLate r = true) ∧
      (c.isLate r = true → i.env.sendCancel c.id = true)) :
    MovesForward s (c.processResponse s.settings i.env r).1.2 := by
  by_cases hlate : c.isLate r = true
  · obtain ⟨hcan, hcomp, h0, -, hinv⟩ := ClientTransaction.isLate_iff.mp hlate
    rw [(ClientTransaction.processResponse_late hlate).2.1, if_pos ((ho hcomp).2 hlate)]
    intro a b id old new heq
    have hwhere : id = c.id ∧ old = .completed ∧ new = .proceeding ∧ b = [.sendCancel c.id] := by
      rcases a with - | ⟨x, - | ⟨y, - | ⟨z, a⟩⟩⟩
      · simp at heq
      · simp only [List.cons_append, List.nil_append, List.cons.injEq, Output.stateChange.injEq] at heq
        obtain ⟨-, ⟨h1, h2, h3⟩, h4⟩ := heq
        exact ⟨h1.symm, h2.symm, h3.symm, h4.symm⟩
      · simp at heq
      · simp at heq
    obtain ⟨rfl, rfl, rfl, rfl⟩ := hwhere
    exact Or.inr ⟨rfl, rfl, ⟨c, hmem, rfl, hinv, hcan, ⟨hcomp, h0⟩, hs.late hcomp hcan h0⟩, [], rfl⟩
  · refine .of_forall fun id old new hm => ?_
    rcases ClientTransaction.mem_processResponse hm with ⟨h, -⟩ | hx | ⟨hterm, -, hrep, hm⟩
    · exact absurd h hlate
    · cases hx
    · rcases ClientTransaction.mem_processNewResponse hm with ⟨n, hx, hne, hn⟩ | ⟨hx, -⟩ | ⟨hx, -⟩
      · cases hx
        have hlt : c.state = .completed → ¬r.status < 200 := fun hcomp hlt => hlate ((ho hcomp).1 hlt)
        rcases hn with ⟨rfl, -, hst⟩ | ⟨rfl | rfl, hst⟩
        · cases hcs : c.state
          case notStarted => exact absurd hcs hl.state
          case completed => exact absurd (by omega) (hlt hcs)
          all_goals first | decide | exact absurd hcs hne | exact absurd hcs hterm
        · cases hcs : c.state
          case notStarted => exact absurd hcs hl.state
          all_goals first | decide | exact absurd hcs hne | exact absurd hcs hterm
        · exact rank_lt_terminated hterm
      · cases hx
      · cases hx

theorem closed_steady (hr : Reached s) (ho : Orderly s i.env i.event) (hs : ∀ c ∈ s.all, Steady s.log c) :
    Closed Steady (MovesForward s) s i where
  toLaunches := launches_steady
  act {l c x} ha hpre h := by
    rcases hr.classified c ha.mem with hd | hl
    · obtain ⟨rack, -, rfl⟩ := ha.prack_of_dormant hd
      refine ⟨Steady.mono ⟨h.final, h.provisional, h.early, h.late⟩, .of_forall fun _ _ _ hm => ?_⟩
      rcases ClientTransaction.mem_forwardPrack hm with hx | hx <;> cases hx
    · cases ha with
      | @response r _ he hc =>
        have hmem := List.mem_of_find?_eq_some (taker_eq_some.mp hc).2.2.2
        rw [he] at ho
        have hoc := ho c hc
        exact ⟨h.processResponse fun hcomp => (hoc hcomp).1,
          forward_processResponse (hs c (List.mem_append_left _ hmem)) hmem hl hoc⟩
      | timer he hc ha =>
        refine ⟨(h.timerFires hl.state ha).mono, .of_forall fun _ _ _ hm => ?_⟩
        rcases ClientTransaction.mem_timerFires hl.state hm with ⟨hx, -⟩ | ⟨n, hx, hne, hn⟩ | ⟨m, hx⟩ | ⟨-, hx | hx⟩
        · cases hx
        · cases hx
          rcases hn with rfl | ⟨rfl, rfl⟩
          · exact rank_lt_terminated hne
          · rcases h.provisional with hp | ⟨-, -, hcall⟩
            · simp [ClientTransaction.armed, ClientTransaction.timer, hp, Timer.off] at ha
            · rw [hcall]
              decide
        · cases hx
        · cases hx
        · cases hx
      | info he hc =>
        refine ⟨(h.forwardRequest hl.state).mono, .of_forall fun _ _ _ hm => ?_⟩
        rcases ClientTransaction.mem_forwardRequest hl.state hm with ⟨hx, hne⟩ | ⟨m, hx⟩
        · cases hx
          exact rank_lt_terminated hne
        · cases hx
      | prack he hc =>
        refine ⟨Steady.mono ⟨h.final, h.provisional, h.early, h.late⟩, .of_forall fun _ _ _ hm => ?_⟩
        rcases ClientTransaction.mem_forwardPrack hm with hx | hx <;> cases hx
  cancel hmarks h := by
    obtain ⟨-, hmark⟩ := hmarks
    refine ⟨h.cancelRequest fun _ => hmark, .of_forall fun _ _ _ hm => ?_⟩
    rcases ClientTransaction.mem_cancelRequest hm with ⟨hx, -⟩ | ⟨hx, -⟩ | ⟨hx, -⟩
    · cases hx
      decide
    · cases hx
      decide
    · cases hx

/-- A transaction with a final status in `s` is over and has it still. -/
def FinalKept (s : ProxyCore) (_ : List Output) (c : ClientTransaction) : Prop :=
  ∀ d ∈ s.all, d.id = c.id → 200 ≤ d.sipStatus → c.sipStatus = d.sipStatus ∧ (c.state = .completed ∨ c.state = .terminated)

theorem closed_finalKept {r : Response} (hr : Reached s) (he : i.event = .response r) (hst : r.status ≤ 199)
    (ho : Orderly s i.env i.event) : Closed (FinalKept s) (fun _ => True) s i where
  mono h := h
  nil := trivial
  append _ _ := trivial
  note _ := trivial
  new hid d hd hdid := by
    have hlt := hr.keyed.fresh d hd
    rw [hdid] at hlt
    exact absurd hlt (Nat.not_lt.mpr hid)
  launch {l c} hs h := by
    refine ⟨fun d hd hid hfin => ?_, trivial⟩
    rw [ClientTransaction.forwardRequest_id] at hid
    simpa [hs] using (h d hd hid hfin).2
  act {l c x} ha _ h := by
    refine ⟨fun d hd hid hfin => ?_, trivial⟩
    obtain ⟨hstat, hover⟩ := h d hd (hid.trans ha.id_eq) hfin
    rw [he] at ho
    cases ha with
    | @response r' _ he' hc =>
      obtain rfl : r = r' := by simpa [he] using he'
      rcases hover with hcomp | hterm
      · -- A late transaction has no status at all.
        have hlate := (ho c hc hcomp).1 (by omega)
        have := (ClientTransaction.isLate_iff.mp hlate).2.2.1
        omega
      · have hsame : c.processResponse s.settings i.env r = ((c, []), .discard) := by
          simp [ClientTransaction.processResponse, hterm]
        rw [hsame]
        exact ⟨hstat, Or.inr hterm⟩
    | timer he' _ _ => simp [he] at he'
    | info he' _ => simp [he] at he'
    | prack he' _ => simp [he] at he'
  cancel {l c} _ h := by
    refine ⟨fun d hd hid hfin => ?_, trivial⟩
    obtain ⟨hstat, hover⟩ := h d hd (hid.trans ClientTransaction.cancelRequest_id) hfin
    rcases ClientTransaction.cancelRequest_cases s.settings i.env c with ⟨hc, -⟩ | ⟨hc, -⟩ | ⟨hc, -⟩ | ⟨-, he⟩
    · simp [hc] at hover
    · simp [hc] at hover
    · simp [hc] at hover
    · rw [he]
      exact ⟨hstat, hover⟩

theorem step_monotone (hr : Reached s) (hs : ∀ c ∈ s.all, Steady s.log c) (ho : Orderly s i.env i.event) :
    Monotone s i where
  forward := (closed_steady hr ho hs).written hs
  status r he hst c hc hfin d hd hid := by
    have hall : ∀ c ∈ s.all, FinalKept s s.log c := fun c hc d hd hid hfin => by
      obtain rfl := hr.keyed.eq_of_id hd hc hid
      exact ⟨rfl, (hs d hd).final hfin⟩
    exact (((closed_finalKept hr he hst.2 ho).tracks hall).clients d hd c hc hid.symm hfin).1
  best r he hst hbest := by
    obtain ⟨states, hbest⟩ := hbest
    refine step_no_best hr.classified ?_
    rintro (hsearch | ⟨r', he', hch⟩)
    · simp [hr.sought.best states hbest] at hsearch
    · obtain rfl : r = r' := by simpa [he] using he'
      unfold savedChallenge at hch
      rw [if_neg (by omega)] at hch
      simp at hch

end

/-! ### Runs -/

/-- In a run whose steps are all orderly, every step is monotone. -/
theorem progress_monotone (k : Settings) (env : Env) (req : Request) (destinations : List String) (is : List Input)
    (i : Input)
    (h : Machine.Meets step (fun s i => Orderly s i.env i.event) (doProxy k env req destinations) (is ++ [i])) :
    Monotone (Machine.run step (doProxy k env req destinations) is) i := by
  obtain ⟨his, ho, -⟩ := Machine.meets_append.mp h
  refine step_monotone (run_reached k env req destinations is) ?_ ho
  have hinv : Reached (Machine.run step (doProxy k env req destinations) is) ∧
      ∀ c ∈ (Machine.run step (doProxy k env req destinations) is).all,
        Steady (Machine.run step (doProxy k env req destinations) is).log c := by
    refine Machine.run_induction (I := fun s => Reached s ∧ ∀ c ∈ s.all, Steady s.log c) (fun s i hs ho => ?_) ?_ his
    · exact ⟨step_reached hs.1 i, ((closed_steady hs.1 ho hs.2).tracks hs.2).clients⟩
    · have hl : Launches Steady (MovesForward (addProxy k env req destinations)) 0 k env req := launches_steady
      exact ⟨doProxy_reached, hl.doProxy.clients⟩
  exact hinv.2

/-- A target of two is busy, and a provisional response that was overtaken comes after the 486: the transaction
    goes back to proceeding and forgets the 486. -/
theorem progress_overtaken :
    let s := Machine.run step (doProxy { launchType := .simultaneous } .reliable { method := .invite }
      ["sip:a.example.org", "sip:b.example.org"])
      [⟨.reliable, .response { status := 486, method := .invite, branch := 0 }⟩]
    ¬Monotone s ⟨.reliable, .response { status := 180, method := .invite, branch := 0 }⟩ := by
  intro s h
  rcases h.forward [.received { status := 180, method := .invite, branch := 0 }]
    (s.written ⟨.reliable, .response { status := 180, method := .invite, branch := 0 }⟩).tail.tail 0 .completed .proceeding
    (by decide) with hr | ⟨-, -, ⟨c, hc, hid, hcan⟩, -⟩
  · exact absurd hr (by decide)
  · have hall : ∀ c ∈ s.clients, c.canceled = false := by decide
    exact absurd hcan.canceled (by simp [hall c hc])

/-- The late first response of a canceled INVITE. -/
theorem progress_monotone_late :
    let is : List Input := [⟨.reliable, .cancel⟩]
    let i : Input := ⟨.reliable, .response { status := 180, method := .invite, branch := 0 }⟩
    let s := doProxy { launchType := .serial } .reliable { method := .invite } ["sip:a.example.org"]
    .stateChange 0 .completed .proceeding ∈ (Machine.run step s is).written i ∧ Monotone (Machine.run step s is) i :=
  ⟨by decide, progress_monotone _ _ _ _ _ _ (by decide)⟩

end Drachtio.Proxy
