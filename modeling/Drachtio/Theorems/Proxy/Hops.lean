import Drachtio.Lib.Run
import Drachtio.Proxy.Controller
import Drachtio.Theorems.Proxy.Search

/-! The Max-Forwards of what the proxy sends downstream: the search for a target counts it down and never starts
    with none left, the requests that go past the search are sent on with what they came with. -/

namespace Drachtio.Proxy

open Machine ProxyCore ClientTransaction

/-- Max-Forwards, one less or set to 70 -/
def decremented : Option UInt64 → UInt64
  | some count => count - 1
  | none => 70

/-- The copy has one hop less than the request had, and 70 of them when the request had no count. -/
def Copy.Decremented (c : Copy) : Prop :=
  ∃ m, c.sent = some m ∧ match c.received with
    | some count => m.toNat + 1 = count.toNat
    | none => m = 70

/-- What is to hold of the copies: all are counted down, and those of the request to one client transaction have the
    same count. -/
structure Protected (s : Proxying) : Prop where
  decremented : ∀ c ∈ s.copies, c.Decremented
  same : ∀ c ∈ s.copies, ∀ d ∈ s.copies, c.path = .search → d.path = .search → c.client = d.client → c.sent = d.sent

/-- An INFO is sent to a client transaction. -/
def InfoSent (env : Env) (s : ProxyCore) : Prop :=
  s.registered = true ∧ ∃ c, s.clients.find? (·.isCallingOrProceeding) = some c ∧ env.hasTransport c.id = true ∧
    env.sendRequest c.id = true

/-- A PRACK is sent to a client transaction. -/
def PrackSent (env : Env) (rack : UInt32) (s : ProxyCore) : Prop :=
  s.registered = true ∧ ∃ c, s.clients.find? (·.rseq == s.server.getReplacedRSeq rack) = some c ∧ env.sendPrack c.id = true

/-- No PRACK and no request of an established dialog is sent on, and no INFO without hops left. -/
def Counts (s : Proxying) : Arrival → Prop
  | .step i _ =>
    match i.event with
    | .info req => req.maxForwards = some 0 → ¬ InfoSent i.env s.core
    | .prack rack => ¬ PrackSent i.env rack s.core
    | _ => True
  | .routed _ hasTransport send => ¬ (hasTransport = true ∧ send = true)

/-! ### Copies -/

theorem decremented_iff {path : Path} {client : Option Nat} {received : Option UInt64} :
    Copy.Decremented ⟨path, client, received, some (decremented received)⟩ ↔ received ≠ some 0 := by
  cases received with
  | none => exact iff_of_true ⟨70, rfl, rfl⟩ nofun
  | some count =>
    have hsub : (count - 1).toNat + 1 = count.toNat ↔ count ≠ 0 := by
      rw [UInt64.toNat_sub, ne_eq, ← UInt64.toNat_inj]
      have hlt := count.toNat_lt
      simp only [UInt64.toNat_one, UInt64.toNat_zero]
      omega
    constructor
    · rintro ⟨m, hm, hcount⟩
      obtain rfl := Option.some.inj hm
      exact fun h => hsub.mp hcount (Option.some.inj h)
    · exact fun h => ⟨_, rfl, hsub.mpr fun h0 => h (congrArg some h0)⟩

/-- A request that is sent on as it came is not counted down. -/
theorem not_decremented {path : Path} {client : Option Nat} {received : Option UInt64} :
    ¬ Copy.Decremented ⟨path, client, received, received⟩ := by
  rintro ⟨m, hm, hcount⟩
  dsimp only at hm hcount
  subst hm
  exact absurd hcount (by dsimp only; omega)

/-! ### What is sent -/

/-- The requests in the outputs have the given Max-Forwards, and there is no PRACK. -/
def SendsOnly (v : UInt64) (w : List Output) : Prop :=
  (∀ client m target sent, Output.sendRequest client m target sent ∈ w → sent = v) ∧
    ∀ client rack rseq, Output.sendPrack client rack rseq ∉ w

section
variable {v : UInt64} {w w' : List Output} {x : Output} {k : Settings} {env : Env} {req : Request} {c : ClientTransaction}

theorem sendsOnly_nil : SendsOnly v [] := ⟨nofun, nofun⟩

theorem SendsOnly.append (h : SendsOnly v w) (h' : SendsOnly v w') : SendsOnly v (w ++ w') := by
  constructor
  · intro client m target sent hx
    rcases List.mem_append.mp hx with hx | hx
    · exact h.1 _ _ _ _ hx
    · exact h'.1 _ _ _ _ hx
  · intro client rack rseq hx
    rcases List.mem_append.mp hx with hx | hx
    · exact h.2 _ _ _ hx
    · exact h'.2 _ _ _ hx

theorem sendsOnly_note (hx : x.isNote = true) : SendsOnly v [x] := by
  constructor
  · intro client m target sent hm
    obtain rfl := List.mem_singleton.mp hm
    exact nomatch hx
  · intro client rack rseq hm
    obtain rfl := List.mem_singleton.mp hm
    exact nomatch hx

theorem sendsOnly_check {b : Bool} {a : Assertion} : SendsOnly v (check b a) :=
  ⟨fun _ _ _ _ hx => absurd (mem_check hx).1 nofun, fun _ _ _ hx => absurd (mem_check hx).1 nofun⟩

theorem sendsOnly_setState {n : TransactionState} : SendsOnly v (c.setState k n).2 := by
  constructor
  · intro client m target sent hx
    rcases mem_setState hx with ⟨h, -⟩ | ⟨t, h, -⟩ <;> exact nomatch h
  · intro client rack rseq hx
    rcases mem_setState hx with ⟨h, -⟩ | ⟨t, h, -⟩ <;> exact nomatch h

theorem sendsOnly_cancelRequest : SendsOnly v (c.cancelRequest k env).2 := by
  constructor
  · intro client m target sent hx
    rcases mem_cancelRequest hx with ⟨h, -⟩ | ⟨h, -⟩ | ⟨h, -⟩ <;> exact nomatch h
  · intro client rack rseq hx
    rcases mem_cancelRequest hx with ⟨h, -⟩ | ⟨h, -⟩ | ⟨h, -⟩ <;> exact nomatch h

theorem sendsOnly_forwardRequest : SendsOnly (decremented req.maxForwards) (c.forwardRequest k env req).1.2 := by
  have hstart : SendsOnly (decremented req.maxForwards) (check (c.transmitCount + 1 == 1) .firstTransmit) := sendsOnly_check
  have hsent : ∀ target, SendsOnly (decremented req.maxForwards)
      [.sendRequest c.id req.method target (match req.maxForwards with | some count => count - 1 | none => 70)] := by
    intro target
    refine ⟨fun client m target' sent hx => ?_, fun client rack rseq hx => nomatch List.mem_singleton.mp hx⟩
    obtain ⟨-, -, -, rfl⟩ := Output.sendRequest.inj (List.mem_singleton.mp hx)
    cases req.maxForwards <;> rfl
  unfold ClientTransaction.forwardRequest
  dsimp only
  by_cases hs : c.state = .notStarted
  · simp only [if_pos hs]
    split
    · split
      · exact (hstart.append sendsOnly_setState).append (hsent _)
      · exact (hstart.append sendsOnly_setState).append sendsOnly_setState
    · exact hstart.append sendsOnly_setState
  · simp only [if_neg hs]
    split
    · split
      · exact sendsOnly_nil.append (hsent _)
      · exact sendsOnly_nil.append sendsOnly_setState
    · exact sendsOnly_nil

theorem sendsOnly_retransmitRequest : SendsOnly (decremented req.maxForwards) (c.retransmitRequest k env req).2 := by
  rw [retransmitRequest_outputs]
  exact sendsOnly_forwardRequest

theorem sendsOnly_processResponse {r : Response} : SendsOnly v (c.processResponse k env r).1.2 := by
  have hnone : ∀ x ∈ (c.processResponse k env r).1.2, (∀ client m target sent, x ≠ .sendRequest client m target sent) ∧
      ∀ client rack rseq, x ≠ .sendPrack client rack rseq := by
    intro x hx
    rcases mem_processResponse hx with ⟨-, rfl | rfl | rfl⟩ | rfl | ⟨-, -, -, hx⟩
    · exact ⟨nofun, nofun⟩
    · exact ⟨nofun, nofun⟩
    · exact ⟨nofun, nofun⟩
    · exact ⟨nofun, nofun⟩
    · rcases mem_processNewResponse hx with ⟨n, rfl, -⟩ | ⟨rfl, -⟩ | ⟨rfl, -⟩ <;> exact ⟨nofun, nofun⟩
  exact ⟨fun _ _ _ _ hx => absurd rfl ((hnone _ hx).1 _ _ _ _), fun _ _ _ hx => (hnone _ hx).2 _ _ _ rfl⟩

theorem sendsOnly_timerFires {t : TimerName} : SendsOnly (decremented req.maxForwards) (c.timerFires k env req t).2 := by
  cases t with
  | timerA => exact sendsOnly_check.append sendsOnly_retransmitRequest
  | timerE => exact sendsOnly_check.append sendsOnly_retransmitRequest
  | timerB => exact sendsOnly_check.append sendsOnly_setState
  | timerD => exact sendsOnly_check.append sendsOnly_setState
  | timerK => exact sendsOnly_check.append sendsOnly_setState
  | timerF => exact sendsOnly_setState
  | timerProvisional => exact sendsOnly_check.append sendsOnly_setState
  | timerC =>
    have hgenerate : SendsOnly (decremented req.maxForwards) [.generateResponse 408] := sendsOnly_note rfl
    refine (sendsOnly_check.append ?_).append (hgenerate.append sendsOnly_setState)
    split
    · exact sendsOnly_cancelRequest
    · exact sendsOnly_nil

end

/-! ### What a step sends -/

section
variable {s : ProxyCore} {i : Input} {w : List Output} {mf : Option UInt64}

/-- Other steps than that of an INFO or a PRACK only send the request. -/
theorem written_sendsOnly (hinfo : ∀ req, i.event ≠ .info req) (hprack : ∀ rack, i.event ≠ .prack rack) :
    SendsOnly (decremented s.request.maxForwards) (s.written i) := by
  have hclosed : Closed (fun _ _ => True) (SendsOnly (decremented s.request.maxForwards)) s i :=
    { mono := fun _ => trivial
      nil := sendsOnly_nil
      append := SendsOnly.append
      note := sendsOnly_note
      new := fun _ => trivial
      launch := fun _ _ => ⟨trivial, sendsOnly_forwardRequest⟩
      act := by
        intro l c x ha _ _
        refine ⟨trivial, ?_⟩
        cases ha with
        | response _ _ => exact sendsOnly_processResponse
        | timer _ _ _ => exact sendsOnly_timerFires
        | info he _ => exact absurd he (hinfo _)
        | prack he _ => exact absurd he (hprack _)
      cancel := fun _ _ => ⟨trivial, sendsOnly_cancelRequest⟩ }
  exact hclosed.written fun _ _ => trivial

/-- The copies of the request that such outputs stand for. -/
theorem copies_search {request : Request} {event : Option Event} (hinfo : ∀ req, event ≠ some (.info req))
    (hw : SendsOnly (decremented request.maxForwards) w) : ∀ c ∈ w.filterMap (copyOf request event mf),
      c.received = request.maxForwards ∧ c.sent = some (decremented request.maxForwards) := by
  intro c hc
  obtain ⟨x, hx, hcopy⟩ := List.mem_filterMap.mp hc
  cases x with
  | sendRequest client m target sent =>
    obtain rfl := hw.1 _ _ _ _ hx
    unfold copyOf at hcopy
    dsimp only at hcopy
    split at hcopy
    · exact absurd rfl (hinfo _)
    · obtain rfl := Option.some.inj hcopy
      exact ⟨rfl, rfl⟩
  | sendPrack client rack rseq => exact absurd hx (hw.2 _ _ _)
  | _ => exact nomatch hcopy

/-- A core that never was started: nothing reaches its client transactions. -/
structure Idle (s : ProxyCore) : Prop where
  registered : s.registered = false
  timers : ∀ c ∈ s.all, ∀ t, c.armed t = false

theorem Idle.receive (h : Idle s) (env : Env) (r : Response) :
    s.receive env r = s.emit [.received r, .forwardStateless r] := by
  have hreg : (s.emit [.received r]).registered = false := h.registered
  unfold ProxyCore.receive
  dsimp only
  rw [hreg, if_neg Bool.false_ne_true, ite_self, emit, emit, emit, List.append_assoc, List.singleton_append]

/-- Only responses leave a trace, and only in the log. -/
theorem Idle.step (h : Idle s) (i : Input) : s.step i = s ∨ ∃ r, s.step i = s.emit [.received r, .forwardStateless r] := by
  have hreg : s.registered = false := h.registered
  cases he : i.event with
  | response r =>
    simp only [ProxyCore.step, he]
    split
    · exact Or.inr ⟨r, h.receive i.env r⟩
    · exact Or.inl rfl
  | timer t id =>
    refine Or.inl ?_
    simp only [ProxyCore.step, he]
    split
    · rfl
    · rename_i c hc
      rw [h.timers c (List.mem_of_find?_eq_some hc) t]
      rfl
  | cancel => exact Or.inl (by simp only [ProxyCore.step, he, hreg, Bool.false_eq_true, false_and, if_false])
  | info req => exact Or.inl (by simp only [ProxyCore.step, he, hreg, Bool.false_eq_true, if_false])
  | prack rack => exact Or.inl (by simp only [ProxyCore.step, he, hreg, Bool.false_eq_true, if_false])

/-- The request has no hops left only while its core is idle. -/
def Stopped (s : Proxying) : Prop := s.core.request.maxForwards = some 0 → Idle s.core

theorem Idle.emit (h : Idle s) : Idle (s.emit w) := ⟨h.registered, h.timers⟩

theorem copies_nil {request : Request} (hstep : s.step i = s) :
    (s.written i).filterMap (copyOf request (some i.event) mf) = [] := by
  rw [written, hstep, List.drop_length, List.filterMap_nil]

theorem copies_setState {request : Request} {event : Option Event} {k : Settings} {c : ClientTransaction}
    {n : TransactionState} :
    (c.setState k n).2.filterMap (copyOf request event mf) = [] := by
  refine List.filterMap_eq_nil_iff.mpr fun x hx => ?_
  rcases mem_setState hx with ⟨rfl, -⟩ | ⟨t, rfl, -⟩ <;> rfl

/-- The copy that an INFO is sent on as. -/
theorem forwardRequest_copies {k : Settings} {env : Env} {request req : Request} {c : ClientTransaction}
    (hs : c.state ≠ .notStarted) :
    (c.forwardRequest k env req).1.2.filterMap (copyOf request (some (.info req)) mf) =
      if env.hasTransport c.id = true ∧ env.sendRequest c.id = true then
        [⟨.info, some c.id, req.maxForwards, some (decremented req.maxForwards)⟩]
      else [] := by
  unfold ClientTransaction.forwardRequest
  simp only [if_neg hs]
  by_cases ht : env.hasTransport c.id = true
  · simp only [if_pos ht]
    by_cases hsend : env.sendRequest c.id = true
    · simp only [ht, hsend, and_self, if_true, List.nil_append]
      cases hmf : req.maxForwards <;> simp only [List.filterMap_cons, List.filterMap_nil, copyOf, decremented, hmf]
    · simp only [ht, hsend, List.nil_append]
      exact copies_setState
  · simp only [ht]
    rfl

theorem written_put {x : ClientTransaction × List Output} (hstep : s.step i = s.put x) : s.written i = x.2 := by
  rw [written, hstep, put, List.drop_left]

/-- What a step sends for an INFO. -/
theorem copies_info {req : Request} (he : i.event = .info req) (c : Copy) :
    c ∈ (s.written i).filterMap (copyOf s.request (some i.event) mf) ↔
      s.registered = true ∧ ∃ d, s.clients.find? (·.isCallingOrProceeding) = some d ∧ i.env.hasTransport d.id = true ∧
        i.env.sendRequest d.id = true ∧ c = ⟨.info, some d.id, req.maxForwards, some (decremented req.maxForwards)⟩ := by
  by_cases hreg : s.registered = true
  · cases hfind : s.clients.find? (·.isCallingOrProceeding) with
    | none =>
      have hstep : s.step i = s := by simp only [ProxyCore.step, he, hreg, if_true, ProxyCore.forwardRequest, hfind]
      rw [copies_nil hstep]
      refine iff_of_false List.not_mem_nil ?_
      rintro ⟨-, d, h, -⟩
      cases h
    | some d =>
      have hstep : s.step i = s.put (d.forwardRequest s.settings i.env req).1 := by
        simp only [ProxyCore.step, he, hreg, if_true, ProxyCore.forwardRequest, hfind]
      have hstate : d.state ≠ .notStarted := by
        intro h
        have hcalling := List.find?_some hfind
        rw [isCallingOrProceeding, h] at hcalling
        cases hcalling
      rw [written_put hstep, he, forwardRequest_copies hstate]
      constructor
      · intro hc
        split at hc
        · rename_i hsent
          exact ⟨hreg, d, rfl, hsent.1, hsent.2, List.mem_singleton.mp hc⟩
        · cases hc
      · rintro ⟨-, d', hd, ht, hsend, rfl⟩
        obtain rfl := Option.some.inj hd
        rw [if_pos ⟨ht, hsend⟩]
        exact List.mem_singleton.mpr rfl
  · have hstep : s.step i = s := by simp only [ProxyCore.step, he, hreg, Bool.false_eq_true, if_false]
    rw [copies_nil hstep]
    exact iff_of_false List.not_mem_nil fun h => hreg h.1

/-- What a step sends for a PRACK. -/
theorem copies_prack {rack : UInt32} (he : i.event = .prack rack) (c : Copy) :
    c ∈ (s.written i).filterMap (copyOf s.request (some i.event) mf) ↔
      s.registered = true ∧ ∃ d, s.clients.find? (·.rseq == s.server.getReplacedRSeq rack) = some d ∧
        i.env.sendPrack d.id = true ∧ c = ⟨.prack, some d.id, mf, mf⟩ := by
  by_cases hreg : s.registered = true
  · cases hfind : s.clients.find? (·.rseq == s.server.getReplacedRSeq rack) with
    | none =>
      have hstep : s.step i = s := by simp only [ProxyCore.step, he, hreg, if_true, ProxyCore.forwardPrack, hfind]
      rw [copies_nil hstep]
      refine iff_of_false List.not_mem_nil ?_
      rintro ⟨-, d, h, -⟩
      exact nomatch h
    | some d =>
      have hstep : s.step i = s.put (d.forwardPrack i.env rack) := by
        simp only [ProxyCore.step, he, hreg, if_true, ProxyCore.forwardPrack, hfind]
      have hcheck : (check (d.rseq != 0) .rseqSet).filterMap (copyOf s.request (some i.event) mf) = [] := by
        refine List.filterMap_eq_nil_iff.mpr fun x hx => ?_
        obtain ⟨rfl, -⟩ := mem_check hx
        rfl
      rw [written_put hstep, ClientTransaction.forwardPrack, List.filterMap_append, hcheck, List.nil_append]
      constructor
      · intro hc
        split at hc
        · rename_i hsent
          exact ⟨hreg, d, rfl, hsent, List.mem_singleton.mp hc⟩
        · exact nomatch hc
      · rintro ⟨-, d', hd, hsend, rfl⟩
        obtain rfl := Option.some.inj hd
        rw [if_pos hsend]
        exact List.mem_singleton.mpr rfl
  · have hstep : s.step i = s := by simp only [ProxyCore.step, he, hreg, Bool.false_eq_true, if_false]
    rw [copies_nil hstep]
    exact iff_of_false List.not_mem_nil fun h => hreg h.1

end

section
variable {s : Proxying} {a : Arrival}

theorem Stopped.step (h : Stopped s) : Stopped (s.step a) := by
  cases a with
  | step i mf =>
    intro hnone
    have hnone' : s.core.request.maxForwards = some 0 := by
      rw [← step_request (s := s.core) (i := i)]
      exact hnone
    show Idle (s.core.step i)
    rcases (h hnone').step i with hstep | ⟨r, hstep⟩ <;> rw [hstep]
    · exact h hnone'
    · exact (h hnone').emit
  | routed req hasTransport send =>
    show Stopped (s.processRequestWithRouteHeader req hasTransport send)
    unfold Proxying.processRequestWithRouteHeader
    split <;> exact h

/-- A copy of the request the proxy was made for, counted down from at least one hop. -/
structure OfRequest (request : Request) (c : Copy) : Prop where
  received : c.received = request.maxForwards
  sent : c.sent = some (Proxy.decremented c.received)
  left : c.received ≠ some 0

theorem OfRequest.decremented {request : Request} {c : Copy} (h : OfRequest request c) : c.Decremented := by
  obtain ⟨path, client, received, sent⟩ := c
  obtain rfl : sent = some (Proxy.decremented received) := h.sent
  exact decremented_iff.mpr h.left

/-- The copies that the search for a target sends are those of the request, and a request without hops left has
    none. -/
structure Counted (s : Proxying) : Prop where
  search : ∀ c ∈ s.copies, c.path = .search → OfRequest s.core.request c
  stopped : Stopped s

/-- All copies have one hop less than what they are copies of. -/
def AllDecremented (s : Proxying) : Prop := ∀ c ∈ s.copies, c.Decremented

theorem Counted.protected_iff (h : Counted s) : Protected s ↔ AllDecremented s := by
  constructor
  · exact fun hp => hp.decremented
  · intro hd
    refine ⟨hd, fun c hc d hd hsearch hsearch' _ => ?_⟩
    have hc' := h.search c hc hsearch
    have hd' := h.search d hd hsearch'
    rw [hc'.sent, hd'.sent, hc'.received, hd'.received]

/-- The copies that something that happens adds. -/
def Proxying.added (s : Proxying) : Arrival → List Copy
  | .step i mf => (s.core.written i).filterMap (copyOf s.core.request (some i.event) mf)
  | .routed req hasTransport send =>
    if hasTransport = true ∧ send = true then [⟨.route, none, req.maxForwards, req.maxForwards⟩] else []

theorem step_copies : (s.step a).copies = s.copies ++ s.added a ∧ (s.step a).core.request = s.core.request := by
  cases a with
  | step i mf => exact ⟨rfl, step_request⟩
  | routed req hasTransport send =>
    unfold Proxying.step Proxying.processRequestWithRouteHeader Proxying.added
    dsimp only
    split
    · exact ⟨rfl, rfl⟩
    · exact ⟨(List.append_nil _).symm, rfl⟩

/-- What is to be shown of the copies that something adds. -/
def Adds (s : Proxying) (a : Arrival) : Prop :=
  (∀ c ∈ s.added a, c.path = .search → OfRequest s.core.request c) ∧ ((∀ c ∈ s.added a, c.Decremented) ↔ Counts s a)

/-- A step of the search sends copies of the request only, and none that has no hops left. -/
theorem Counted.adds_search {i : Input} {mf : Option UInt64} (h : Counted s) (hinfo : ∀ req, i.event ≠ .info req)
    (hprack : ∀ rack, i.event ≠ .prack rack) : Adds s (.step i mf) := by
  have hof : ∀ c ∈ s.added (.step i mf), OfRequest s.core.request c := by
    intro c hc
    obtain ⟨hreceived, hsent⟩ :=
      copies_search (fun req he => hinfo req (Option.some.inj he)) (written_sendsOnly hinfo hprack) c hc
    refine ⟨hreceived, hreceived ▸ hsent, fun hnone => ?_⟩
    -- A core that counts no hops was never started.
    rcases (h.stopped (hreceived ▸ hnone)).step i with hstep | ⟨r, hstep⟩
    · rw [Proxying.added, copies_nil hstep] at hc
      cases hc
    · rw [Proxying.added, written, hstep, emit, List.drop_left] at hc
      cases hc
  refine ⟨fun c hc _ => hof c hc, iff_of_true (fun c hc => (hof c hc).decremented) ?_⟩
  unfold Counts
  dsimp only
  split
  · rename_i req he
    exact absurd he (hinfo req)
  · rename_i rack he
    exact absurd he (hprack rack)
  · trivial

theorem adds_info {i : Input} {mf : Option UInt64} {req : Request} (he : i.event = .info req) : Adds s (.step i mf) := by
  have hmem : ∀ c, c ∈ s.added (.step i mf) ↔ _ := copies_info he
  refine ⟨fun c hc hpath => ?_, ?_⟩
  · obtain ⟨-, d, -, -, -, rfl⟩ := (hmem c).mp hc
    exact nomatch hpath
  · simp only [Counts, he]
    constructor
    · rintro hd hnone ⟨hreg, d, hfind, ht, hsend⟩
      exact decremented_iff.mp (hd _ ((hmem _).mpr ⟨hreg, d, hfind, ht, hsend, rfl⟩)) hnone
    · intro hsent c hc
      obtain ⟨hreg, d, hfind, ht, hsend, rfl⟩ := (hmem c).mp hc
      exact decremented_iff.mpr fun hnone => hsent hnone ⟨hreg, d, hfind, ht, hsend⟩

theorem adds_prack {i : Input} {mf : Option UInt64} {rack : UInt32} (he : i.event = .prack rack) : Adds s (.step i mf) := by
  have hmem : ∀ c, c ∈ s.added (.step i mf) ↔ _ := copies_prack he
  refine ⟨fun c hc hpath => ?_, ?_⟩
  · obtain ⟨-, d, -, -, rfl⟩ := (hmem c).mp hc
    exact nomatch hpath
  · simp only [Counts, he]
    constructor
    · rintro hd ⟨hreg, d, hfind, hsend⟩
      exact not_decremented (hd _ ((hmem _).mpr ⟨hreg, d, hfind, hsend, rfl⟩))
    · intro hsent c hc
      obtain ⟨hreg, d, hfind, hsend, rfl⟩ := (hmem c).mp hc
      exact absurd ⟨hreg, d, hfind, hsend⟩ hsent

theorem adds_routed {req : Request} {hasTransport send : Bool} : Adds s (.routed req hasTransport send) := by
  unfold Adds Proxying.added
  by_cases hsent : hasTransport = true ∧ send = true
  · simp only [if_pos hsent]
    refine ⟨fun c hc hpath => ?_, iff_of_false (fun hd => ?_) fun hcounts => hcounts hsent⟩
    · obtain rfl := List.mem_singleton.mp hc
      exact nomatch hpath
    · exact not_decremented (hd _ List.mem_cons_self)
  · simp only [if_neg hsent]
    exact ⟨nofun, iff_of_true nofun hsent⟩

theorem Counted.adds (h : Counted s) : Adds s a := by
  cases a with
  | routed req hasTransport send => exact adds_routed
  | step i mf =>
    cases he : i.event with
    | info req => exact adds_info he
    | prack rack => exact adds_prack he
    | response r => exact h.adds_search (by simp [he]) (by simp [he])
    | timer t id => exact h.adds_search (by simp [he]) (by simp [he])
    | cancel => exact h.adds_search (by simp [he]) (by simp [he])

theorem Counted.step (h : Counted s) : Counted (s.step a) := by
  refine ⟨?_, h.stopped.step⟩
  rw [step_copies.1, step_copies.2]
  intro c hc
  rcases List.mem_append.mp hc with hc | hc
  · exact h.search c hc
  · exact h.adds.1 c hc

theorem Counted.decremented_step (h : Counted s) : AllDecremented (s.step a) ↔ AllDecremented s ∧ Counts s a := by
  rw [← h.adds.2, AllDecremented, step_copies.1]
  exact List.forall_mem_append

end

/-! ### The start -/

section
variable {k : Settings} {env : Env} {req : Request} {destinations : List String}

/-- With no hops left the request is answered with 483. -/
theorem doProxy_stopped (hnone : req.maxForwards = some 0) : Idle (ProxyCore.doProxy k env req destinations) ∧
    (Proxying.doProxy k env req destinations).copies = [] := by
  unfold Proxying.doProxy ProxyCore.doProxy
  simp only [if_pos hnone]
  refine ⟨⟨rfl, fun c hc t => ?_⟩, rfl⟩
  have hmem : c ∈ newClients env 0 destinations := by simpa [removeProxy, emit, addProxy, all] using hc
  obtain ⟨id, target, -, rfl⟩ := mem_newClients hmem
  cases t <;> rfl

theorem doProxy_sendsOnly : SendsOnly (decremented req.maxForwards) (ProxyCore.doProxy k env req destinations).log := by
  have hl : Launches (fun _ _ => True) (SendsOnly (decremented req.maxForwards)) 0 k env req :=
    { mono := fun _ => trivial
      nil := sendsOnly_nil
      append := SendsOnly.append
      note := sendsOnly_note
      new := fun _ => trivial
      launch := fun _ _ => ⟨trivial, sendsOnly_forwardRequest⟩ }
  exact hl.doProxy.log

theorem counted_doProxy : Counted (Proxying.doProxy k env req destinations) := by
  have hrequest : (Proxying.doProxy k env req destinations).core.request = req := doProxy_request
  constructor
  · rw [hrequest]
    intro c hc _
    have hc' : c ∈ (ProxyCore.doProxy k env req destinations).log.filterMap (copyOf req none none) := hc
    obtain ⟨hreceived, hsent⟩ := copies_search (fun _ => (Option.some_ne_none _).symm) doProxy_sendsOnly c hc'
    refine ⟨hreceived, hreceived ▸ hsent, fun hnone => ?_⟩
    rw [(doProxy_stopped (hreceived ▸ hnone)).2] at hc
    exact nomatch hc
  · intro hnone
    exact (doProxy_stopped (hrequest ▸ hnone)).1

theorem allDecremented_doProxy : AllDecremented (Proxying.doProxy k env req destinations) := by
  intro c hc
  have hsearch : c.path = .search := by
    obtain ⟨x, hx, hcopy⟩ := List.mem_filterMap.mp hc
    cases x with
    | sendRequest client m target sent =>
      obtain rfl := Option.some.inj hcopy
      rfl
    | sendPrack client rack rseq => exact absurd hx (doProxy_sendsOnly.2 _ _ _)
    | _ => exact nomatch hcopy
  exact (counted_doProxy.search c hc hsearch).decremented

end

/-- Every request is sent on with one hop less, and never without hops left, exactly when no PRACK, no request of an
    established dialog and no INFO without hops left is sent on. -/
theorem hops_counted_iff (k : Settings) (env : Env) (req : Request) (destinations : List String) (arrivals : List Arrival) :
    Protected (run Proxying.step (.doProxy k env req destinations) arrivals) ↔
      Meets Proxying.step Counts (.doProxy k env req destinations) arrivals := by
  have hcounted : Counted (run Proxying.step (.doProxy k env req destinations) arrivals) :=
    run_invariant (fun _ _ h => h.step) counted_doProxy
  rw [hcounted.protected_iff, run_iff (fun _ _ h => h.step) (fun _ _ h => h.decremented_step) counted_doProxy]
  exact and_iff_right allDecremented_doProxy

/-- A BYE of an established dialog that has no hops left is sent on as it is. -/
theorem hops_not_counted : ¬ ∀ (k : Settings) (env : Env) (req : Request) (destinations : List String)
    (arrivals : List Arrival), Protected (run Proxying.step (.doProxy k env req destinations) arrivals) := by
  intro hall
  have hp := hall { launchType := .serial } .reliable ⟨.invite, some 70⟩ ["sip:a"] [.routed ⟨.bye, some 0⟩ true true]
  exact not_decremented (hp.decremented ⟨.route, none, some 0, some 0⟩ (List.mem_append_right _ List.mem_cons_self))

end Drachtio.Proxy
