import Drachtio.Theorems.Proxy.Keys

/-! The search for a target ends for good: once m_searching is false it stays false, and no client
    transaction is launched any more. A transaction that was never launched has no branch on the wire and no
    timer, so nothing but `startRequests` can reach it. -/

namespace Drachtio.Proxy
open ProxyCore

/-! ### Transactions that were never launched -/

namespace ClientTransaction

/-- Never launched: no branch, no timers, and not started or removed before it was. -/
structure Dormant (c : ClientTransaction) : Prop where
  branch : c.branch = none
  state : c.state = .notStarted ∨ c.state = .terminated
  timers : ∀ t, c.timer t = .off

/-- Launched at some time. -/
structure Launched (c : ClientTransaction) : Prop where
  branch : c.branch = some c.id
  state : c.state ≠ .notStarted

variable {k : Settings} {env : Env} {req : Request} {r : Response} {c : ClientTransaction}

theorem dormant_new {id : Nat} {target : String} : (new env id target).Dormant where
  branch := rfl
  state := Or.inl rfl
  timers t := by cases t <;> rfl

theorem Dormant.not_armed (h : c.Dormant) (t : TimerName) : c.armed t = false := by
  simp [armed, h.timers t, Timer.off]

theorem Dormant.not_accepts (h : c.Dormant) (hr : r.method ≠ .prack) : c.accepts r = false := by
  simp [accepts, h.branch, hr]

theorem Dormant.not_callingOrProceeding (h : c.Dormant) : c.isCallingOrProceeding = false := by
  rcases h.state with hs | hs <;> simp [isCallingOrProceeding, hs]

theorem Dormant.cancelRequest (h : c.Dormant) : (c.cancelRequest k env).1.Dormant := by
  have hA : c.timerA = .off := h.timers .timerA
  have hB : c.timerB = .off := h.timers .timerB
  have hC : c.timerC = .off := h.timers .timerC
  have hD : c.timerD = .off := h.timers .timerD
  have hE : c.timerE = .off := h.timers .timerE
  have hF : c.timerF = .off := h.timers .timerF
  have hK : c.timerK = .off := h.timers .timerK
  have hP : c.timerProvisional = .off := h.timers .timerProvisional
  have hoff : Timer.off.removeTimer = .off := rfl
  refine ⟨cancelRequest_kept.branch.trans h.branch, ?_, ?_⟩
  · rcases h.state with hs | hs <;> simp [ClientTransaction.cancelRequest, hs]
  · intro t
    rcases h.state with hs | hs
    · simp only [ClientTransaction.cancelRequest, hs, setState]
      rw [if_neg (by simp)]
      dsimp only
      split <;> cases t <;> simp [enterInvite, enterNonInvite, timer, hA, hB, hC, hD, hE, hF, hK, hP, hoff]
    · simp only [ClientTransaction.cancelRequest, hs]
      cases t <;> simp [timer, hA, hB, hC, hD, hE, hF, hK, hP, hoff]

theorem Launched.of_kept {d : ClientTransaction} (h : c.Launched) (hk : c.Kept d) (hs : d.state ≠ .notStarted) :
    d.Launched :=
  ⟨by rw [hk.branch, hk.id, h.branch], hs⟩

theorem Launched.cancelRequest (h : c.Launched) : (c.cancelRequest k env).1.Launched :=
  h.of_kept cancelRequest_kept (cancelRequest_started h.state)

end ClientTransaction

section
variable {s₀ s t : ProxyCore} {i : Input} {c : ClientTransaction}

/-- Only a PRACK can reach a transaction that was never launched. -/
theorem Acts.prack_of_dormant {x : ClientTransaction × List Output} (ha : Acts s₀ i c x) (h : c.Dormant) :
    ∃ rack, i.event = .prack rack ∧ x = c.forwardPrack i.env rack := by
  cases ha with
  | response _ hc =>
    obtain ⟨-, -, hm, hc⟩ := taker_eq_some.mp hc
    have := List.find?_some hc
    simp [h.not_accepts hm] at this
  | timer _ _ ha => simp [h.not_armed] at ha
  | info _ hc =>
    have := List.find?_some hc
    simp [h.not_callingOrProceeding] at this
  | prack he _ => exact ⟨_, he, rfl⟩

theorem Acts.dormant {x : ClientTransaction × List Output} (ha : Acts s₀ i c x) (h : c.Dormant) : x.1.Dormant := by
  obtain ⟨rack, -, rfl⟩ := ha.prack_of_dormant h
  exact ⟨h.branch, h.state, fun t => by simp [h.timers]⟩

/-- A launched transaction keeps what the launch gave it. -/
theorem Acts.kept {x : ClientTransaction × List Output} (ha : Acts s₀ i c x) (h : c.Launched) : c.Kept x.1 := by
  cases ha with
  | response _ _ => exact ClientTransaction.processResponse_kept
  | timer _ _ _ => exact ClientTransaction.timerFires_kept h.state _
  | info _ _ => exact ClientTransaction.forwardRequest_kept h.state
  | prack _ _ => exact ClientTransaction.forwardPrack_kept

theorem Acts.launched {x : ClientTransaction × List Output} (ha : Acts s₀ i c x) (h : c.Launched) : x.1.Launched := by
  refine h.of_kept (ha.kept h) ?_
  cases ha with
  | response _ _ => exact ClientTransaction.processResponse_started h.state
  | timer _ _ _ => exact ClientTransaction.timerFires_started h.state _
  | info _ _ => exact ClientTransaction.forwardRequest_started h.state
  | prack _ _ => exact h.state

end

/-! ### Launches in the log -/

/-- A transaction leaves not_started for calling or trying. -/
def Output.isLaunch : Output → Bool
  | .stateChange _ .notStarted .calling | .stateChange _ .notStarted .trying => true
  | _ => false

theorem Output.isLaunch_note {x : Output} (h : x.isNote = true) : x.isLaunch = false := by
  cases x <;> simp_all [Output.isNote, Output.isLaunch]

theorem Output.isLaunch_stateChange {c : Nat} {old new : TransactionState} (h : old ≠ .notStarted) :
    (Output.stateChange c old new).isLaunch = false := by
  cases old <;> simp_all [Output.isLaunch]

section
variable {s₀ s t : ProxyCore} {i : Input} {c : ClientTransaction} {x : Output}

/-- What an action on a client transaction writes: the only output of the core is the 408 of timer C, and nothing
    is a launch. -/
theorem Acts.outputs {x : ClientTransaction × List Output} (ha : Acts s₀ i c x) (h : c.Dormant ∨ c.Launched) :
    ∀ y ∈ x.2, y.isLaunch = false ∧
      (y.isNote = true → y = .generateResponse 408 ∧ ∃ id, i.event = .timer .timerC id) := by
  intro y hy
  rcases h with hd | h
  · obtain ⟨rack, -, rfl⟩ := ha.prack_of_dormant hd
    rcases ClientTransaction.mem_forwardPrack hy with rfl | rfl <;> simp [Output.isLaunch, Output.isNote]
  · have moved : ∀ {n : TransactionState}, y = .stateChange c.id c.state n → y.isLaunch = false ∧
        (y.isNote = true → y = .generateResponse 408 ∧ ∃ id, i.event = .timer .timerC id) := fun hy => by
      subst hy
      exact ⟨Output.isLaunch_stateChange h.state, by simp [Output.isNote]⟩
    cases ha with
    | response _ _ =>
      rcases ClientTransaction.mem_processResponse hy with ⟨-, rfl | rfl | rfl⟩ | rfl | ⟨-, -, -, hn⟩
      · simp [Output.isLaunch, Output.isNote]
      · simp [Output.isLaunch, Output.isNote]
      · simp [Output.isLaunch, Output.isNote]
      · simp [Output.isLaunch, Output.isNote]
      · rcases ClientTransaction.mem_processNewResponse hn with ⟨n, hy, -, -⟩ | ⟨rfl, -⟩ | ⟨rfl, -⟩
        · exact moved hy
        · simp [Output.isLaunch, Output.isNote]
        · simp [Output.isLaunch, Output.isNote]
    | timer he _ _ =>
      rcases ClientTransaction.mem_timerFires h.state hy with ⟨rfl, -⟩ | ⟨n, hy, -⟩ | ⟨m, rfl⟩ | ⟨rfl, rfl | rfl⟩
      · simp [Output.isLaunch, Output.isNote]
      · exact moved hy
      · simp [Output.isLaunch, Output.isNote]
      · simp [Output.isLaunch, Output.isNote]
      · exact ⟨rfl, fun _ => ⟨rfl, _, he⟩⟩
    | info _ _ =>
      rcases ClientTransaction.mem_forwardRequest h.state hy with ⟨hy, -⟩ | ⟨m, rfl⟩
      · exact moved hy
      · simp [Output.isLaunch, Output.isNote]
    | prack _ _ => rcases ClientTransaction.mem_forwardPrack hy with rfl | rfl <;> simp [Output.isLaunch, Output.isNote]

theorem Output.isMark_of_not_note (h : x.isNote = false) : x.isMark = false := by
  cases x <;> simp_all [Output.isNote, Output.isMark]

theorem Acts.quiet {x : ClientTransaction × List Output} (ha : Acts s₀ i c x) (h : c.Dormant ∨ c.Launched) :
    ∀ y ∈ x.2, y.isLaunch = false ∧ y.isMark = false := by
  intro y hy
  obtain ⟨hl, hn⟩ := ha.outputs h y hy
  refine ⟨hl, ?_⟩
  by_cases hnote : y.isNote = true
  · rw [(hn hnote).1]
    rfl
  · exact Output.isMark_of_not_note (by simpa using hnote)

theorem cancelRequest_outputs {k : Settings} {env : Env} (h : x ∈ (c.cancelRequest k env).2) :
    x.isLaunch = false ∧ x.isNote = false := by
  rcases ClientTransaction.mem_cancelRequest h with ⟨rfl, -⟩ | ⟨rfl, -⟩ | ⟨rfl, -⟩ <;> exact ⟨rfl, rfl⟩

theorem launch_outputs {k : Settings} {env : Env} {req : Request} (hs : c.state = .notStarted)
    (h : x ∈ (c.forwardRequest k env req).1.2) : x.isNote = false := by
  rcases ClientTransaction.mem_forwardRequest_launch hs h with ⟨a, rfl, rfl | ⟨t, rfl, -⟩⟩ | ⟨n, -, rfl | rfl⟩ | ⟨m, rfl⟩ <;>
    rfl

theorem launch_notes {k : Settings} {env : Env} {req : Request} {l : List ClientTransaction} :
    ∀ y ∈ (launch k env req l).2.1, y.isNote = false :=
  (launch_forall (l := []) (P := fun _ _ => True) (Q := fun w => ∀ y ∈ w, y.isNote = false) id (by simp)
    (fun h₁ h₂ y hy => (List.mem_append.mp hy).elim (h₁ y) (h₂ y))
    (fun hs _ => ⟨trivial, fun _ hy => launch_outputs hs hy⟩) fun _ _ => trivial).2

/-! ### The search -/

variable {A : Nat → Prop}

/-- m_searching and the log agree, nothing is launched after the search is over, and only client transactions
    in `A` were launched. -/
structure Sought (A : Nat → Prop) (s : ProxyCore) : Prop where
  flag : s.searching = false ↔ .searchOver ∈ s.log
  order : s.log.Pairwise fun x y => x = .searchOver → y.isLaunch = false
  best : ∀ states, .bestResponse states ∈ s.log → s.searching = false
  clients : ∀ c ∈ s.all, c.Dormant ∨ c.Launched ∧ A c.id

/-- More log without a launch and without the end of the search. -/
theorem Sought.quiet (h : Sought A s) {w : List Output} (hlog : t.log = s.log ++ w)
    (hw : ∀ y ∈ w, y.isLaunch = false ∧ y.isMark = false) (hs : t.searching = s.searching)
    (hc : ∀ c ∈ t.all, c.Dormant ∨ c.Launched ∧ A c.id) : Sought A t where
  flag := by
    rw [hs, h.flag, hlog, List.mem_append]
    exact ⟨Or.inl, fun hm => hm.resolve_right fun hm => Bool.noConfusion (hw _ hm).2⟩
  order := by
    rw [hlog, List.pairwise_append]
    exact ⟨h.order, List.pairwise_of_forall_mem_list fun _ _ y hy _ => (hw y hy).1, fun _ _ y hy _ => (hw y hy).1⟩
  best states hm := by
    rw [hlog, List.mem_append] at hm
    rw [hs]
    exact h.best states (hm.resolve_right fun hm => Bool.noConfusion (hw _ hm).2)
  clients := hc

theorem Sought.endSearch (h : Sought A s) : Sought A s.endSearch where
  flag := by simp
  order := by
    rw [endSearch_log, List.pairwise_append]
    exact ⟨h.order, List.pairwise_singleton _ _, fun _ _ y hy _ => by simp_all [Output.isLaunch]⟩
  best _ _ := rfl
  clients := h.clients

theorem Sought.startRequests (h : Sought A s) (env : Env) (hA : s.searching = true → ∀ id, A id) :
    Sought A (s.startRequests env).1 := by
  unfold ProxyCore.startRequests
  split
  · rename_i hs
    have hover : Output.searchOver ∉ s.log := fun hm => by simp [h.flag.mpr hm] at hs
    have hl : (∀ c ∈ (launch s.settings env s.request s.clients).1, c.Dormant ∨ c.Launched ∧ A c.id) ∧
        ∀ y ∈ (launch s.settings env s.request s.clients).2.1, y.isMark = false := by
      refine launch_forall (l := []) (P := fun _ c => c.Dormant ∨ c.Launched ∧ A c.id)
        (Q := fun w => ∀ y ∈ w, y.isMark = false) id (by simp) (fun h₁ h₂ y hy => (List.mem_append.mp hy).elim (h₁ y) (h₂ y))
        (fun hn _ => ⟨Or.inr ?_, fun y hy => ?_⟩) fun c hc => h.clients c (List.mem_append_left _ hc)
      · obtain ⟨hb, hmeth⟩ := ClientTransaction.forwardRequest_launch hn
        exact ⟨⟨by simpa using hb, hmeth.2⟩, hA hs _⟩
      · exact Output.isMark_of_not_note (launch_outputs hn hy)
    have hne : ∀ {x}, x ∈ (launch s.settings env s.request s.clients).2.1 → x ≠ .searchOver := fun hx e => by
      have := hl.2 _ hx
      simp [e, Output.isMark] at this
    refine ⟨?_, ?_, fun states hm => ?_, fun c hc => ?_⟩
    · simp only [hs, List.mem_append, hover, false_or, Bool.true_eq_false, false_iff]
      exact fun hm => hne hm rfl
    · rw [List.pairwise_append]
      exact ⟨h.order, List.pairwise_of_forall_mem_list fun y hy _ _ e => absurd e (hne hy),
        fun y hy _ _ e => absurd (e ▸ hy) hover⟩
    · rcases List.mem_append.mp hm with hm | hm
      · exact h.best states hm
      · exact Bool.noConfusion (hl.2 _ hm)
    · rcases List.mem_append.mp hc with hc | hc
      · exact hl.1 c hc
      · exact h.clients c (List.mem_append_right _ hc)
  · exact h

theorem Micro.sought (h₀ : Sought A s₀) (hA : s.searching = true → ∀ id, A id) (hm : Micro s₀ i s t)
    (h : Sought A s) : Sought A t := by
  have note : ∀ {y : Output}, y.isNote = true → y.isMark = false →
      ∀ z ∈ [y], z.isLaunch = false ∧ z.isMark = false := fun hy hne z hz => by
    rw [List.mem_singleton.mp hz]
    exact ⟨Output.isLaunch_note hy, hne⟩
  cases hm with
  | note x hx hm _ => exact h.quiet (w := [x]) rfl (note hx hm) rfl h.clients
  | best _ =>
    refine ⟨by simp, ?_, fun _ _ => rfl, h.clients⟩
    rw [endSearch_log, emit_log, List.append_assoc, List.pairwise_append]
    exact ⟨h.order, by simp, fun _ _ y hy _ => by simp at hy; rcases hy with rfl | rfl <;> rfl⟩
  | mark b => exact h.quiet (w := []) (List.append_nil _).symm (by simp) rfl h.clients
  | forward r _ =>
    unfold ProxyCore.forwardResponse
    dsimp only
    split
    · exact h.quiet (w := [_]) rfl (note rfl rfl) rfl h.clients
    · exact h.quiet (w := []) (List.append_nil _).symm (by simp) rfl h.clients
  | @act c x hs ha =>
    have hx : (x.1.Dormant ∨ x.1.Launched ∧ A x.1.id) ∧ ∀ y ∈ x.2, y.isLaunch = false ∧ y.isMark = false := by
      have hc := h₀.clients c ha.mem
      refine ⟨?_, ha.quiet (hc.imp_right (·.1))⟩
      rcases hc with hd | ⟨hl, hin⟩
      · exact Or.inl (ha.dormant hd)
      · exact Or.inr ⟨ha.launched hl, ha.id_eq ▸ hin⟩
    refine h.quiet (w := x.2) rfl hx.2 rfl fun d hd => ?_
    rcases mem_put hd with rfl | hd
    · exact hx.1
    · exact h.clients d hd
  | remove b _ =>
    exact h.quiet (w := []) (List.append_nil _).symm (by simp) rfl fun d hd => h.clients d (mem_removeTerminated hd)
  | start => exact h.startRequests i.env hA
  | endSearch => exact h.endSearch
  | cancelOutstanding =>
    have hlog : (s.cancelOutstandingRequests i.env).log = s.log ++ [.searchOver, .cancelOutstanding] ++
        s.clients.flatMap fun c => (c.cancelRequest s.settings i.env).2 := by simp
    have hw : ∀ y ∈ [.searchOver, .cancelOutstanding] ++ s.clients.flatMap fun c => (c.cancelRequest s.settings i.env).2,
        y.isLaunch = false := fun y hy => by
      rcases List.mem_append.mp hy with hy | hy
      · simp at hy
        rcases hy with rfl | rfl <;> rfl
      · obtain ⟨c, -, hy⟩ := List.mem_flatMap.mp hy
        exact (cancelRequest_outputs hy).1
    refine ⟨by simp, ?_, fun _ _ => rfl, fun d hd => ?_⟩
    · rw [hlog, List.append_assoc, List.pairwise_append]
      exact ⟨h.order, List.pairwise_of_forall_mem_list fun _ _ y hy _ => hw y hy, fun _ _ y hy _ => hw y hy⟩
    · rcases List.mem_append.mp hd with hd | hd
      · rw [cancelOutstandingRequests_clients] at hd
        obtain ⟨c, hc, rfl⟩ := List.mem_map.mp hd
        exact (h.clients c (List.mem_append_left _ hc)).imp (·.cancelRequest) fun hl =>
          ⟨hl.1.cancelRequest, by simpa using hl.2⟩
      · exact h.clients d (List.mem_append_right _ hd)
  | sort =>
    refine h.quiet (w := []) (List.append_nil _).symm (by simp) rfl fun d hd => h.clients d ?_
    rcases List.mem_append.mp hd with hd | hd
    · exact List.mem_append_left _ ((sortBest_perm s.clients).mem_iff.mp hd)
    · exact List.mem_append_right _ hd
  | add targets target =>
    unfold addClientTransactions
    split
    · refine h.quiet (w := []) (List.append_nil _).symm (by simp) rfl fun d hd => ?_
      rcases List.mem_append.mp hd with hd | hd
      · rcases mem_insertAfter hd with hd | hd
        · exact h.clients d (List.mem_append_left _ hd)
        · obtain ⟨id, target', -, rfl⟩ := mem_newClients hd
          exact Or.inl ClientTransaction.dormant_new
      · exact h.clients d (List.mem_append_right _ hd)
    · exact h.quiet (w := [_]) rfl (note rfl rfl) rfl h.clients

theorem Micro.searching (hm : Micro s₀ i s t) (h : s.searching = false) : t.searching = false := by
  cases hm with
  | forward r _ => simpa using h
  | start => simpa using h
  | add targets target => unfold addClientTransactions; split <;> exact h
  | best _ => rfl
  | endSearch => rfl
  | cancelOutstanding => rfl
  | _ => exact h

theorem chain_sought (h : Sought A s) (hA : s.searching = true → ∀ id, A id) (hc : Chain s i s t) :
    Sought A t ∧ (t.searching = true → ∀ id, A id) := by
  induction hc with
  | refl => exact ⟨h, hA⟩
  | tail _ hm ih =>
    refine ⟨hm.sought h ih.2 ih.1, fun ht => ih.2 ?_⟩
    by_contra hs
    simp [hm.searching (by simpa using hs)] at ht

theorem step_sought (h : Sought A s) (hA : s.searching = true → ∀ id, A id) (i : Input) : Sought A (s.step i) :=
  (chain_sought h hA (step_chain s i)).1

theorem step_searching (h : s.searching = false) (i : Input) : (s.step i).searching = false := by
  suffices ht : ∀ {t : ProxyCore}, Chain s i s t → t.searching = false from ht (step_chain s i)
  intro t hc
  induction hc with
  | refl => exact h
  | tail _ hm ih => exact hm.searching ih

theorem doProxy_sought {k : Settings} {env : Env} {req : Request} {destinations : List String} :
    Sought (fun _ => True) (doProxy k env req destinations) := by
  refine doProxy_induction ?_ (fun h => h.startRequests env (by simp)) (fun s w hw h => ?_) (fun s h => ?_)
  · refine ⟨by simp [addProxy], by simp [addProxy], by simp [addProxy], fun c hc => ?_⟩
    have hmem : c ∈ newClients env 0 destinations := by simpa [addProxy, all] using hc
    obtain ⟨id, target, -, rfl⟩ := mem_newClients hmem
    exact Or.inl ClientTransaction.dormant_new
  · exact h.quiet (w := w) rfl (fun y hy => ⟨Output.isLaunch_note (hw y hy).1, (hw y hy).2.1⟩) rfl h.clients
  · exact ⟨h.flag, h.order, h.best, h.clients⟩

end

/-! ### Methods -/

/-- Launched transactions have the method of the original request. -/
def Typed (m : Method) (_ : List Output) (c : ClientTransaction) : Prop := c.Dormant ∨ c.Launched ∧ c.method = m

theorem launches_typed {next : Nat} {k : Settings} {env : Env} {req : Request} :
    Launches (Typed req.method) (fun _ => True) next k env req where
  mono h := h
  nil := trivial
  append _ _ := trivial
  note _ := trivial
  new _ := Or.inl ClientTransaction.dormant_new
  launch hs _ := by
    obtain ⟨hb, hm, hst⟩ := ClientTransaction.forwardRequest_launch hs
    exact ⟨Or.inr ⟨⟨by simpa using hb, hst⟩, hm⟩, trivial⟩

theorem closed_typed {s : ProxyCore} {i : Input} : Closed (Typed s.request.method) (fun _ => True) s i where
  toLaunches := launches_typed
  act ha _ hP := by
    refine ⟨?_, trivial⟩
    rcases hP with hd | ⟨hl, hm⟩
    · exact Or.inl (ha.dormant hd)
    · exact Or.inr ⟨ha.launched hl, (ha.kept hl).method.trans hm⟩
  cancel _ hP := by
    refine ⟨?_, trivial⟩
    rcases hP with hd | ⟨hl, hm⟩
    · exact Or.inl hd.cancelRequest
    · exact Or.inr ⟨hl.cancelRequest, ClientTransaction.cancelRequest_kept.method.trans hm⟩

/-! ### Final responses -/

/-- The final response that a transaction keeps is a failure. -/
def KeepsFailure (_ : List Output) (c : ClientTransaction) : Prop := ∀ r, c.msgFinal = some r → 300 ≤ r.status

theorem launches_keepsFailure {next : Nat} {k : Settings} {env : Env} {req : Request} :
    Launches KeepsFailure (fun _ => True) next k env req where
  mono h := h
  nil := trivial
  append _ _ := trivial
  note _ := trivial
  new _ _ h := by cases h
  launch _ h := ⟨fun r hr => h r (by simpa using hr), trivial⟩

theorem closed_keepsFailure {s : ProxyCore} {i : Input} : Closed KeepsFailure (fun _ => True) s i where
  toLaunches := launches_keepsFailure
  act {l c x} ha _ h := by
    refine ⟨fun r hr => ?_, trivial⟩
    cases ha with
    | response _ _ =>
      rcases ClientTransaction.processResponse_msgFinal (c := c) with he | ⟨he, hst⟩
      · exact h r (he ▸ hr)
      · rw [he] at hr
        cases hr
        exact hst
    | timer _ _ _ => exact h r (by simpa using hr)
    | info _ _ => exact h r (by simpa using hr)
    | prack _ _ => exact h r hr
  cancel _ h := ⟨fun r hr => h r (by simpa using hr), trivial⟩

/-! ### Best responses -/

section
variable {s₀ s t : ProxyCore} {i : Input}

/-- What it takes to select a best response: the search still goes on, or a challenge is saved. -/
def Selects (s : ProxyCore) (i : Input) : Prop :=
  s.searching = true ∨ ∃ r, i.event = .response r ∧ (savedChallenge r).isSome = true

theorem Micro.not_selects (hm : Micro s₀ i s t) (h : ¬Selects s i) : ¬Selects t i := by
  intro ht
  rcases ht with ht | ht
  · have hs : s.searching = false := by simpa using fun hs => h (Or.inl hs)
    simp [hm.searching hs] at ht
  · exact h (Or.inr ht)

/-- Otherwise an elementary update writes no best response. -/
theorem Micro.no_best (h₀ : ∀ c ∈ s₀.all, c.Dormant ∨ c.Launched) (h : ¬Selects s i) (hm : Micro s₀ i s t) :
    ∃ w, t.log = s.log ++ w ∧ ∀ states, .bestResponse states ∉ w := by
  have unmarked : ∀ {w : List Output}, (∀ y ∈ w, y.isMark = false) → ∀ states, .bestResponse states ∉ w :=
    fun hw _ hmem => Bool.noConfusion (hw _ hmem)
  cases hm with
  | note x _ hx _ => exact ⟨[x], rfl, unmarked (by simpa using hx)⟩
  | best hb => exact absurd (hb.imp_left (·.1)) h
  | mark b => exact ⟨[], (List.append_nil _).symm, by simp⟩
  | forward r _ =>
    unfold ProxyCore.forwardResponse
    dsimp only
    split
    · exact ⟨[_], rfl, by simp⟩
    · exact ⟨[], (List.append_nil _).symm, by simp⟩
  | @act c x _ ha =>
    exact ⟨x.2, rfl, unmarked fun y hy => (ha.quiet (h₀ c ha.mem) y hy).2⟩
  | remove b _ => exact ⟨[], (List.append_nil _).symm, by simp⟩
  | start =>
    unfold ProxyCore.startRequests
    split
    · rename_i hs
      exact absurd (Or.inl hs) h
    · exact ⟨[], (List.append_nil _).symm, by simp⟩
  | endSearch => exact ⟨[_], rfl, by simp⟩
  | cancelOutstanding =>
    refine ⟨_, cancelOutstandingRequests_log, fun states hmem => ?_⟩
    simp only [List.mem_cons, reduceCtorEq, false_or] at hmem
    obtain ⟨c, -, hmem⟩ := List.mem_flatMap.mp hmem
    exact Bool.noConfusion (cancelRequest_outputs hmem).2
  | sort => exact ⟨[], (List.append_nil _).symm, by simp⟩
  | add targets target =>
    unfold addClientTransactions
    split
    · exact ⟨[], (List.append_nil _).symm, by simp⟩
    · exact ⟨[_], rfl, by simp⟩

theorem step_no_best (h₀ : ∀ c ∈ s.all, c.Dormant ∨ c.Launched) (h : ¬Selects s i) (states : List TransactionState) :
    .bestResponse states ∉ s.written i := by
  suffices ht : ∀ {t : ProxyCore}, Chain s i s t →
      ¬Selects t i ∧ ∃ w, t.log = s.log ++ w ∧ ∀ states, .bestResponse states ∉ w by
    obtain ⟨-, w, hlog, hw⟩ := ht (step_chain s i)
    rw [ProxyCore.written, hlog, List.drop_left]
    exact hw states
  intro t hc
  induction hc with
  | refl => exact ⟨h, [], (List.append_nil _).symm, by simp⟩
  | tail _ hm ih =>
    obtain ⟨hn, w, hlog, hw⟩ := ih
    obtain ⟨w', hlog', hw'⟩ := hm.no_best h₀ hn
    refine ⟨hm.not_selects hn, w ++ w', by rw [hlog', hlog, List.append_assoc], fun states hmem => ?_⟩
    exact (List.mem_append.mp hmem).elim (hw states) (hw' states)

end

/-! ### Runs -/

/-- What holds in every state of every run. -/
structure Reached (s : ProxyCore) : Prop where
  keyed : WellKeyed s
  sought : Sought (fun _ => True) s
  typed : ∀ c ∈ s.all, c.Dormant ∨ c.Launched ∧ c.method = s.request.method
  failures : ∀ c ∈ s.all, ∀ r, c.msgFinal = some r → 300 ≤ r.status

theorem Reached.classified {s : ProxyCore} (h : Reached s) : ∀ c ∈ s.all, c.Dormant ∨ c.Launched :=
  fun c hc => (h.typed c hc).imp_right (·.1)

theorem step_reached {s : ProxyCore} (h : Reached s) (i : Input) : Reached (s.step i) where
  keyed := step_wellKeyed h.keyed i
  sought := step_sought h.sought (by simp) i
  typed := by
    rw [step_request]
    exact (closed_typed.tracks h.typed).clients
  failures := (closed_keepsFailure.tracks h.failures).clients

theorem doProxy_reached {k : Settings} {env : Env} {req : Request} {destinations : List String} :
    Reached (doProxy k env req destinations) where
  keyed := doProxy_wellKeyed
  sought := doProxy_sought
  typed := by
    have hreq : (doProxy k env req destinations).request = req := doProxy_request
    rw [hreq]
    exact (Launches.doProxy launches_typed).clients
  failures := launches_keepsFailure.doProxy.clients

theorem run_reached (k : Settings) (env : Env) (req : Request) (destinations : List String) (is : List Input) :
    Reached (Machine.run step (doProxy k env req destinations) is) :=
  Machine.run_invariant (fun _ i h => step_reached h i) doProxy_reached

/-- What follows of a core that no longer searches. -/
structure StaysOver (s t : ProxyCore) : Prop where
  searching : t.searching = false
  log : ∃ w, t.log = s.log ++ w ∧ ∀ x ∈ w, x.isLaunch = false
  /-- Whatever was launched was launched before. -/
  clients : ∀ c ∈ t.all, c.state ≠ .notStarted → c.state ≠ .terminated →
    ∃ d ∈ s.all, d.id = c.id ∧ d.state ≠ .notStarted

/-- The search ends for good, after every run and within a step: from the moment m_searching is false it
    stays false, and no client transaction leaves not_started for calling or trying. -/
theorem search_ends_for_good (k : Settings) (env : Env) (req : Request) (destinations : List String)
    (is js : List Input) (h : (Machine.run step (doProxy k env req destinations) is).searching = false) :
    StaysOver (Machine.run step (doProxy k env req destinations) is)
        (Machine.run step (doProxy k env req destinations) (is ++ js)) ∧
      (Machine.run step (doProxy k env req destinations) (is ++ js)).log.Pairwise
        fun x y => x = .searchOver → y.isLaunch = false := by
  rw [Machine.run_append]
  have hs := (run_reached k env req destinations is).sought
  revert hs h
  generalize Machine.run step (doProxy k env req destinations) is = s
  intro h hs
  -- Relative to `s`, only what was launched in `s` can be launched.
  have hbase : Sought (fun id => ∃ d ∈ s.all, d.id = id ∧ d.state ≠ .notStarted) s :=
    ⟨hs.flag, hs.order, hs.best, fun c hc => (hs.clients c hc).imp_right fun hl => ⟨hl.1, c, hc, rfl, hl.1.state⟩⟩
  obtain ⟨ht, hover⟩ : Sought (fun id => ∃ d ∈ s.all, d.id = id ∧ d.state ≠ .notStarted) (Machine.run step s js) ∧
      (Machine.run step s js).searching = false := by
    refine Machine.run_invariant (I := fun t => Sought _ t ∧ t.searching = false) (fun t i ht => ?_) ⟨hbase, h⟩
    exact ⟨step_sought ht.1 (by simp [ht.2]) i, step_searching ht.2 i⟩
  obtain ⟨w, hw⟩ : s.log <+: (Machine.run step s js).log :=
    Machine.run_invariant (I := fun t => s.log <+: t.log) (fun t i ht => ht.trans (step_log t i ▸ List.prefix_append _ _))
      List.prefix_rfl
  refine ⟨⟨hover, ⟨w, hw.symm, fun x hx => ?_⟩, fun c hc h₁ h₂ => ?_⟩, ht.order⟩
  · have hp := ht.order
    rw [← hw, List.pairwise_append] at hp
    exact hp.2.2 _ (hs.flag.mp h) x hx rfl
  · rcases ht.clients c hc with hd | ⟨-, hl⟩
    · rcases hd.state with hst | hst
      · exact absurd hst h₁
      · exact absurd hst h₂
    · exact hl

/-- An environment in which every transport is found and every message is sent. -/
def Env.reliable : Env where
  hasTransport _ := true
  sendRequest _ := true
  sendCancel _ := true
  sendPrack _ := true
  sendResponse := true
  suRandom := 7
  uuid := 0
  junk _ := 0

/-- A CANCEL ends the search; the redirect that follows adds a target, which is not launched. -/
theorem search_ends_for_good_redirect :
    let k : Settings := { launchType := .serial, followRedirects := true }
    let is : List Input := [⟨.reliable, .response { status := 180, method := .invite, branch := 0 }⟩, ⟨.reliable, .cancel⟩]
    let js : List Input := [⟨.reliable, .response
      { status := 302, method := .invite, branch := 0, contacts := ["sip:b.example.org"] }⟩]
    let s := doProxy k .reliable { method := .invite } ["sip:a.example.org"]
    (Machine.run step s (is ++ js)).clients.length = 2 ∧
      StaysOver (Machine.run step s is) (Machine.run step s (is ++ js)) :=
  ⟨by decide, (search_ends_for_good _ _ _ _ _ _ (by decide)).1⟩

end Drachtio.Proxy
