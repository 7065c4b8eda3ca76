import Drachtio.Theorems.Controller.Cores

/-! What comes in from the network: messages that are screened do not interfere with anything, the tables of aliases and
    pending requests go through runs of their own, and a request for a core that is none of these runs is dropped. -/

namespace Drachtio.Controller.Server

open Machine (Meets run trace)
open Pending (PendingRequest PendingRequests isNewRequest)

variable {c : Setup} {s : Server} {env : DispatchEnv} {req : NetRequest} {es : List Event}

/-! ### Screened messages -/

/-- The message does not come past the checks at the beginning. -/
def Event.screened (c : Setup) : Event → Bool
  | .request env req => decide (screen c env req ≠ .passes)
  | .response env r => env.blackListed || r.tport.isNone
  | _ => false

/-- What is done with such a message -/
def Event.refusal (c : Setup) : Event → List Act
  | .request env req => (screen c env req).acts
  | _ => []

theorem request_of_passes (h : screen c env req = .passes) : s.request c env req =
    { s with aliases := s.aliases.cacheContactAlias c.contactAlias req.tport (some req.heard) }.processScreened c env
    req := by
  unfold request
  rw [h]

theorem request_of_screened (h : screen c env req ≠ .passes) : s.request c env req = (s, (screen c env req).acts) := by
  unfold request
  split
  · rename_i hpasses
    exact absurd hpasses h
  · rfl

theorem step_screened {e : Event} (h : e.screened c = true) : s.step c e = (s, e.refusal c) := by
  cases e with
  | request env req => exact request_of_screened (of_decide_eq_true h)
  | response env r =>
    show s.response env r = (s, [])
    unfold response
    rw [if_pos (by simpa [Event.screened] using h)]
  | _ => exact nomatch h

/-- The statuses that a request is refused with for what it is -/
def refusals : List Nat := [400, 403, 603]

theorem notMem_processNewRequest (c : Setup) (s : Server) (env : DispatchEnv) (req : NetRequest) {status : Nat}
    (hstatus : status ∈ refusals) :
    Act.reply status ∉ (s.processNewRequest c env req).2 := by
  have hrouter : ∀ st, Config.processNewRequest req.methodName env.client c.requestRouter = .refuse st → st = 503 := by
    intro st h
    unfold Config.processNewRequest at h
    split at h
    · split at h
      · exact (Config.Handling.refuse.inj h).symm
      · exact nomatch h
    · split at h <;> exact nomatch h
  unfold processNewRequest
  split
  · rintro hmem
    cases List.mem_singleton.mp hmem
    exact absurd hstatus (by decide)
  · split
    · rename_i st hst
      rintro hmem
      cases List.mem_singleton.mp hmem
      rw [hrouter status hst] at hstatus
      exact absurd hstatus (by decide)
    · exact fun hmem => nomatch List.mem_singleton.mp hmem
    · exact fun hmem => nomatch List.mem_singleton.mp hmem

theorem notMem_processMethod {status : Nat} (hstatus : status ∈ refusals) :
    Act.reply status ∉ (s.processMethod c env req).2 := by
  have hnew := notMem_processNewRequest c s env req hstatus
  have hother : ∀ n, n ∉ refusals → Act.reply status ≠ .reply n := by
    rintro n hn heq
    cases heq
    exact hn hstatus
  have h100 := hother 100 (by decide)
  have h180 := hother 180 (by decide)
  have h200 := hother 200 (by decide)
  have h481 := hother 481 (by decide)
  have hrequest : Act.reply status ∉ (s.processRequest c env req).2 := by
    unfold processRequest
    split
    · simp
    · split
      · split
        · simp
        · split
          · simpa using h100
          · cases c.alwaysSend180 <;> simpa [h100, h180] using hnew
      · split
        · simpa using h200
        · exact hnew
  unfold processMethod
  split
  all_goals first | exact hrequest | exact fun hmem => h481 (List.mem_singleton.mp hmem) | simp | skip
  unfold processCancel
  split
  · simp [h200]
  · simpa using h481

/-- A REGISTER is not tracked. -/
theorem cacheContactAlias_register (aliases : ContactAliases) (contactAlias : Bool) (h : req.method = .register) :
    aliases.cacheContactAlias contactAlias req.tport (some req.heard) = aliases := by
  have hregister : req.heard.isRegister = true := decide_eq_true h
  have htracked : ContactAliases.tracked req.tport (some req.heard) = none := by
    unfold ContactAliases.tracked
    cases req.tport with
    | none => rfl
    | some tp =>
      dsimp only
      split
      · rfl
      · split <;> rfl
  unfold ContactAliases.cacheContactAlias
  rw [htracked]
  exact ite_self _

theorem notMem_processRequestWithRouteHeader {status : Nat} :
    Act.reply status ∉ (s.processRequestWithRouteHeader env req).2 := by
  unfold processRequestWithRouteHeader
  split
  · split <;> simp
  · split
    · simp
    · split <;> simp

theorem notMem_processRequestWithoutRouteHeader {status : Nat} :
    Act.reply status ∉ (s.processRequestWithoutRouteHeader env req).2 := by
  unfold processRequestWithoutRouteHeader
  split
  · simp
  · split
    · simp
    · split
      · simp
      · split
        · simp
        · split <;> simp

/-- A request that is refused for what it is has left all tables as they were. -/
theorem request_refused {status : Nat} (hstatus : status ∈ refusals) (hreply : .reply status ∈ (s.request c env req).2) :
    (s.request c env req).1 = s := by
  by_cases hscreen : screen c env req = .passes
  · rw [request_of_passes hscreen] at hreply ⊢
    unfold processScreened at hreply ⊢
    cases hrouted : routed c req with
    | crashes =>
      rw [hrouted] at hreply
      exact absurd hreply (by simp)
    | here =>
      rw [hrouted] at hreply
      exact absurd hreply notMem_processRequestWithRouteHeader
    | no =>
      rw [hrouted] at hreply
      dsimp only at hreply ⊢
      by_cases hproxied : s.proxies.isProxyingRequest req.sip = true
      · rw [if_pos hproxied] at hreply
        exact absurd hreply notMem_processRequestWithoutRouteHeader
      · rw [if_neg hproxied] at hreply ⊢
        by_cases hregister : req.method = .register
        · rw [cacheContactAlias_register _ _ hregister] at hreply ⊢
          rw [if_pos hregister] at hreply ⊢
          cases hcheck : checkRegister c req with
          | passes =>
            rw [hcheck] at hreply
            exact absurd hreply (notMem_processMethod hstatus)
          | drops => rfl
          | refuses st => rfl
          | crashes cr => rfl
        · rw [if_neg hregister] at hreply
          exact absurd hreply (notMem_processMethod hstatus)
  · rw [request_of_screened hscreen]

/-- Messages that are screened interfere with nothing: without them the server is in the same state at the end of any run and
    does the same with all other messages, and each of them gets its own refusal. A request that is refused for what it is has
    left no trace in the tables either. -/
theorem screened_without_trace (c : Setup) (s : Server) (es : List Event) :
    run (next c) s es = run (next c) s (es.filter fun e => !e.screened c) ∧
      (trace (step c) s es).filter (fun x => !x.1.screened c) = trace (step c) s (es.filter fun e => !e.screened c) ∧
      (∀ x ∈ trace (step c) s es, x.1.screened c = true → x.2 = x.1.refusal c) ∧
      ∀ env req, (∃ status ∈ refusals, .reply status ∈ (s.request c env req).2) → (s.request c env req).1 = s := by
  have hidle : ∀ s e, e.screened c = true → (step c s e).1 = s := fun s e h => by rw [step_screened h]
  obtain ⟨hfinal, htrace⟩ := Machine.leave_out s es hidle
  refine ⟨hfinal, htrace, ?_, ?_⟩
  · exact Machine.forall_mem_trace fun s e h => by rw [step_screened h]
  · rintro env req ⟨status, hstatus, hreply⟩
    exact request_refused hstatus hreply

/-! ### Pending requests -/

/-- The request comes to the switch over the methods. -/
def reaches (c : Setup) (env : DispatchEnv) (req : NetRequest) (s : Server) : Bool :=
  decide (screen c env req = .passes ∧ routed c req = .no ∧ s.proxies.isProxyingRequest req.sip = false ∧
    (req.method = .register → checkRegister c req = .passes))

/-- The request with what it meets, as the tables of pending requests are told of it -/
def arrival (c : Setup) (env : DispatchEnv) (req : NetRequest) (s : Server) : Pending.Arrival where
  sip := req.sip
  hasToTag := req.toTag
  proxied := s.proxies.isProxyingRequest req.sip
  tryingFails := !env.trying || (c.alwaysSend180 && !env.ringing)
  autoAnswered := decide (req.userAgent = some c.userAgentAutoAnswerOptions)
  routed := (c.requestRouter.getRoute req.methodName).isSome
  client := env.client
  address := env.address
  uuid := env.uuid
  handle := env.handle

/-- What an event is for the tables of pending requests -/
def pendingOps (c : Setup) (s : Server) : Event → List PendingRequests.Op
  | .request env req =>
    if reaches c env req s = true then
      if req.method = .cancel then (s.pending.findInviteByCallId req.sip.callId.val).toList.map .cancel
      else [.arrive (arrival c env req s)]
    else []
  | .response _ _ => []
  | .doProxy transactionId _ _ _ _ => [.findAndRemove transactionId]
  | .setupLegForIncomingRequest transactionId => [.findAndRemove transactionId]
  | .timeout handle => [.fire handle]
  | .timer _ _ _ _ => []

def pendingRun (c : Setup) : Server → List Event → List PendingRequests.Op
  | _, [] => []
  | s, e :: es => pendingOps c s e ++ pendingRun c (next c s e) es

/-- What an event is for the table of aliases -/
def aliasOps (c : Setup) : Event → List ContactAliases.Op
  | .request env req => if screen c env req = .passes then [.message req.tport (some req.heard)] else []
  | _ => []

theorem call_tables {k : Nat} {f : Proxy.ProxyCore → Proxy.ProxyCore} :
    (s.call k f).pending = s.pending ∧ (s.call k f).aliases = s.aliases := by
  unfold call
  split <;> exact ⟨rfl, rfl⟩

/-- Nobody can be given the request, or it is an INVITE of a dialog. -/
def Unplaced (c : Setup) (env : DispatchEnv) (req : NetRequest) : Prop :=
  (req.method = .invite ∧ req.toTag = true) ∨ ((c.requestRouter.getRoute req.methodName).isSome || env.client.isSome) = false

theorem processNewRequest_pending (c : Setup) (s : Server) (env : DispatchEnv) (req : NetRequest) : (¬ Unplaced c env req ∧
    (s.processNewRequest c env req).1.pending = s.pending.add (PendingRequest.of (arrival c env req s))) ∨
      (Unplaced c env req ∧ (s.processNewRequest c env req).1.pending = s.pending) := by
  unfold processNewRequest Config.processNewRequest Unplaced
  by_cases htag : req.method = .invite ∧ req.toTag = true
  · rw [if_pos htag]
    exact Or.inr ⟨Or.inl htag, rfl⟩
  · rw [if_neg htag]
    cases hroute : c.requestRouter.getRoute req.methodName with
    | none =>
      cases hclient : env.client with
      | none => exact Or.inr ⟨Or.inr rfl, rfl⟩
      | some client => exact Or.inl ⟨by simp [htag], rfl⟩
    | some route =>
      by_cases hurl : route.url = [] <;> exact Or.inl ⟨by simp [htag], by simp [hurl, PendingRequest.of, arrival]⟩

theorem admits_eq (c : Setup) (env : DispatchEnv) (hproxied : s.proxies.isProxyingRequest req.sip = false) :
    s.pending.admits (arrival c env req s) = true ↔
    isNewRequest req.method = true ∧ s.pending.isRetransmission req.sip = false ∧
      ¬ (req.method = .invite ∧ (env.trying = false ∨ (c.alwaysSend180 = true ∧ env.ringing = false))) ∧
      ¬ (req.method = .options ∧ req.userAgent = some c.userAgentAutoAnswerOptions) ∧ ¬ Unplaced c env req := by
  unfold PendingRequests.admits arrival Unplaced
  simp [req.isRequest, hproxied, and_assoc, imp_iff_not_or, Option.isSome_iff_ne_none]

theorem arrive_of_not (h : s.pending.admits (arrival c env req s) ≠ true) :
    s.pending.arrive (arrival c env req s) = s.pending :=
  if_neg h

theorem processRequest_pending (hnew : isNewRequest req.method = true)
    (hproxied : s.proxies.isProxyingRequest req.sip = false) :
    (s.processRequest c env req).1.pending = s.pending.arrive (arrival c env req s) := by
  have hadmits := admits_eq c env hproxied
  unfold processRequest
  by_cases hretrans : s.pending.isRetransmission req.sip = true ∨ s.proxies.isProxyingRequest req.sip = true
  · rw [if_pos hretrans, arrive_of_not]
    rintro h
    rcases hretrans with hretrans | hretrans
    · exact Bool.false_ne_true ((hadmits.mp h).2.1.symm.trans hretrans)
    · exact Bool.false_ne_true (hproxied.symm.trans hretrans)
  · rw [if_neg hretrans]
    have hfirst : s.pending.isRetransmission req.sip = false := Bool.eq_false_iff.mpr fun h => hretrans (Or.inl h)
    have hlast (htrying : ¬ (req.method = .invite ∧ (env.trying = false ∨ (c.alwaysSend180 = true ∧ env.ringing = false))))
        (hauto : ¬ (req.method = .options ∧ req.userAgent = some c.userAgentAutoAnswerOptions)) :
        (s.processNewRequest c env req).1.pending = s.pending.arrive (arrival c env req s) := by
      rcases processNewRequest_pending c s env req with ⟨hplaced, heq⟩ | ⟨hplaced, heq⟩
      · rw [heq]
        exact (if_pos (hadmits.mpr ⟨hnew, hfirst, htrying, hauto, hplaced⟩)).symm
      · rw [heq, arrive_of_not fun h => (hadmits.mp h).2.2.2.2 hplaced]
    by_cases hinvite : req.method = .invite
    · have hauto : ¬ (req.method = .options ∧ req.userAgent = some c.userAgentAutoAnswerOptions) := fun h =>
        nomatch hinvite.symm.trans h.1
      rw [if_pos hinvite]
      by_cases htrying : env.trying = false
      · rw [if_pos htrying, arrive_of_not fun h => (hadmits.mp h).2.2.1 ⟨hinvite, Or.inl htrying⟩]
      · rw [if_neg htrying]
        by_cases hringing : c.alwaysSend180 = true ∧ env.ringing = false
        · rw [if_pos hringing, arrive_of_not fun h => (hadmits.mp h).2.2.1 ⟨hinvite, Or.inr hringing⟩]
        · rw [if_neg hringing]
          exact hlast (fun h => h.2.elim htrying hringing) hauto
    · rw [if_neg hinvite]
      by_cases hauto : req.method = .options ∧ req.userAgent = some c.userAgentAutoAnswerOptions
      · rw [if_pos hauto, arrive_of_not fun h => (hadmits.mp h).2.2.2.1 hauto]
      · rw [if_neg hauto]
        exact hlast (fun h => hinvite h.1) hauto

/-- The switch over the methods does to the tables what they do with an arrival, or with a CANCEL. -/
theorem processMethod_pending (hproxied : s.proxies.isProxyingRequest req.sip = false) :
    (s.processMethod c env req).1.pending = run PendingRequests.step s.pending
      (if req.method = .cancel then (s.pending.findInviteByCallId req.sip.callId.val).toList.map .cancel
        else [.arrive (arrival c env req s)]) := by
  have hadmits := admits_eq c env hproxied
  by_cases hcancel : req.method = .cancel
  · unfold processMethod processCancel
    rw [if_pos hcancel, hcancel]
    dsimp only
    cases s.pending.findInviteByCallId req.sip.callId.val <;> rfl
  · rw [if_neg hcancel]
    show _ = s.pending.arrive (arrival c env req s)
    by_cases hnew : isNewRequest req.method = true
    · rw [← processRequest_pending hnew hproxied]
      unfold processMethod
      split <;> first | rfl | (rename_i h; rw [h] at hnew; exact nomatch hnew)
    · rw [arrive_of_not fun h => hnew (hadmits.mp h).1]
      unfold processMethod
      split <;> first | rfl | (rename_i h; rw [h] at hnew; exact absurd rfl hnew) | exact absurd ‹_› hcancel

theorem processRequestWithRouteHeader_tables : (s.processRequestWithRouteHeader env req).1.pending = s.pending ∧
    (s.processRequestWithRouteHeader env req).1.aliases = s.aliases := by
  unfold processRequestWithRouteHeader
  split
  · split
    · exact ⟨rfl, rfl⟩
    · exact call_tables
  · split
    · exact ⟨rfl, rfl⟩
    · split <;> exact ⟨rfl, rfl⟩

theorem processRequestWithoutRouteHeader_tables : (s.processRequestWithoutRouteHeader env req).1.pending = s.pending ∧
    (s.processRequestWithoutRouteHeader env req).1.aliases = s.aliases := by
  unfold processRequestWithoutRouteHeader
  split
  · exact ⟨rfl, rfl⟩
  · split
    · exact ⟨rfl, rfl⟩
    · split
      · exact ⟨rfl, rfl⟩
      · split
        · exact call_tables
        · split
          · exact call_tables
          · exact ⟨rfl, rfl⟩

theorem processScreened_pending (hscreen : screen c env req = .passes) :
    (s.processScreened c env req).1.pending = run PendingRequests.step s.pending (pendingOps c s (.request env req)) := by
  unfold processScreened
  cases hrouted : routed c req with
  | crashes =>
    have hreaches : reaches c env req s = false := by simp [reaches, hrouted]
    rw [pendingOps, hreaches]
    rfl
  | here =>
    have hreaches : reaches c env req s = false := by simp [reaches, hrouted]
    rw [pendingOps, hreaches]
    exact processRequestWithRouteHeader_tables.1
  | no =>
    dsimp only
    by_cases hproxied : s.proxies.isProxyingRequest req.sip = true
    · have hreaches : reaches c env req s = false := by simp [reaches, hproxied]
      rw [if_pos hproxied, pendingOps, hreaches]
      exact processRequestWithoutRouteHeader_tables.1
    · have hnot := Bool.eq_false_iff.mpr hproxied
      rw [if_neg hproxied]
      by_cases hcheck : req.method = .register → checkRegister c req = .passes
      · have hreaches : reaches c env req s = true := decide_eq_true ⟨hscreen, hrouted, hnot, hcheck⟩
        have hpasses : (if req.method = .register then checkRegister c req else .passes) = .passes := by
          split
          · rename_i hregister
            exact hcheck hregister
          · rfl
        rw [hpasses, pendingOps, if_pos hreaches]
        exact processMethod_pending hnot
      · obtain ⟨hregister, hrefused⟩ := Classical.not_imp.mp hcheck
        have hreaches : reaches c env req s = false := by simp [reaches, hregister, hrefused]
        rw [if_pos hregister, pendingOps, hreaches]
        cases hverdict : checkRegister c req <;> first | exact absurd hverdict hrefused | rfl

theorem next_pending (c : Setup) (s : Server) (e : Event) :
    (next c s e).pending = run PendingRequests.step s.pending (pendingOps c s e) := by
  unfold next
  cases e with
  | request env req =>
    show (s.request c env req).1.pending = _
    by_cases hscreen : screen c env req = .passes
    · rw [request_of_passes hscreen]
      exact processScreened_pending hscreen
    · have hreaches : reaches c env req s = false := by simp [reaches, hscreen]
      rw [request_of_screened hscreen, pendingOps, hreaches]
      rfl
  | response env r =>
    show (s.response env r).1.pending = s.pending
    unfold response
    split
    · rfl
    · split
      · rfl
      · split
        · exact call_tables.1
        · rfl
  | doProxy transactionId k env maxForwards destinations =>
    show (s.doProxy transactionId k env maxForwards destinations).pending = (s.pending.findAndRemove transactionId false).1
    unfold doProxy
    dsimp only
    split
    · rfl
    · split <;> rfl
  | setupLegForIncomingRequest transactionId => rfl
  | timeout handle => rfl
  | timer core env t client => exact call_tables.1

/-- An event with a uuid and a handle that are not in use is an arrival with these. -/
theorem fresh_pendingOps {e : Event} (h : Fresh s e) :
    Meets PendingRequests.step PendingRequests.Fresh s.pending (pendingOps c s e) := by
  cases e with
  | request env req =>
    unfold pendingOps
    dsimp only
    split
    · split
      · cases s.pending.findInviteByCallId req.sip.callId.val with
        | none => trivial
        | some p => exact ⟨trivial, trivial⟩
      · exact ⟨h, trivial⟩
    · trivial
  | response env r => trivial
  | doProxy transactionId k env maxForwards destinations => exact ⟨trivial, trivial⟩
  | setupLegForIncomingRequest transactionId => exact ⟨trivial, trivial⟩
  | timeout handle => exact ⟨trivial, trivial⟩
  | timer core env t client => trivial

theorem processNewRequest_aliases : (s.processNewRequest c env req).1.aliases = s.aliases := by
  unfold processNewRequest
  split
  · rfl
  · split <;> rfl

theorem processRequest_aliases : (s.processRequest c env req).1.aliases = s.aliases := by
  unfold processRequest
  split
  · rfl
  · split
    · split
      · rfl
      · split
        · rfl
        · exact processNewRequest_aliases
    · split
      · rfl
      · exact processNewRequest_aliases

theorem processScreened_aliases : (s.processScreened c env req).1.aliases = s.aliases := by
  have hmethod : (s.processMethod c env req).1.aliases = s.aliases := by
    unfold processMethod
    split
    all_goals first | exact processRequest_aliases | rfl | skip
    unfold processCancel
    split <;> rfl
  unfold processScreened
  split
  · rfl
  · exact processRequestWithRouteHeader_tables.2
  · split
    · exact processRequestWithoutRouteHeader_tables.2
    · split
      · exact hmethod
      · rfl

theorem next_aliases (c : Setup) (s : Server) (e : Event) :
    (next c s e).aliases = run (ContactAliases.step c.contactAlias) s.aliases (aliasOps c e) := by
  unfold next
  cases e with
  | request env req =>
    show (s.request c env req).1.aliases = _
    unfold aliasOps
    dsimp only
    by_cases hscreen : screen c env req = .passes
    · rw [request_of_passes hscreen, processScreened_aliases, if_pos hscreen]
      rfl
    · rw [request_of_screened hscreen, if_neg hscreen]
      rfl
  | response env r =>
    show (s.response env r).1.aliases = s.aliases
    unfold response
    split
    · rfl
    · split
      · rfl
      · split
        · exact call_tables.2
        · rfl
  | doProxy transactionId k env maxForwards destinations =>
    show (s.doProxy transactionId k env maxForwards destinations).aliases = s.aliases
    unfold doProxy
    dsimp only
    split
    · rfl
    · split <;> rfl
  | setupLegForIncomingRequest transactionId => rfl
  | timeout handle => rfl
  | timer core env t client => exact call_tables.2

/-- The two tables of the server go through runs of their own, whatever the proxy cores do: that of the pending requests takes
    the requests that come to the switch over the methods, with the flags that the dispatch computes, and that of the aliases
    every request that is not screened. Uuids and handles that are not in use stay so. -/
theorem tables_run_alone (c : Setup) (s : Server) (es : List Event) :
    (run (next c) s es).pending = run PendingRequests.step s.pending (pendingRun c s es) ∧
      (run (next c) s es).aliases = run (ContactAliases.step c.contactAlias) s.aliases (es.flatMap (aliasOps c)) ∧
      (Meets (next c) Fresh s es → Meets PendingRequests.step PendingRequests.Fresh s.pending (pendingRun c s es)) := by
  induction es generalizing s with
  | nil => exact ⟨rfl, rfl, fun _ => trivial⟩
  | cons e es ih =>
    obtain ⟨hpending, haliases, hfresh⟩ := ih (next c s e)
    rw [Machine.run_cons, hpending, haliases, next_pending, next_aliases, List.flatMap_cons, Machine.run_append, pendingRun,
      Machine.run_append]
    refine ⟨rfl, rfl, ?_⟩
    rintro ⟨hfirst, hrest⟩
    exact Machine.meets_append.mpr ⟨fresh_pendingOps hfirst, next_pending c s e ▸ hfresh hrest⟩

/-! ### Requests for a core -/

/-- A request that comes to a proxy core is the CANCEL of its INVITE, or it is dropped: no INFO or ACK is given to a core. -/
theorem proxied_request (hfresh : Meets (next c) Fresh empty es) (hscreen : screen c env req = .passes)
    (hrouted : routed c req = .no) (hproxied : (run (next c) empty es).proxies.isProxyingRequest req.sip = true) :
    let s := { run (next c) empty es with
      aliases := (run (next c) empty es).aliases.cacheContactAlias c.contactAlias req.tport (some req.heard) }
    ∃ k, s.proxies.getProxy req.sip = some k ∧
      (run (next c) empty es).request c env req = if req.method = .cancel then (s.call k (·.cancel env.core), [])
      else (s, [.discard]) := by
  intro s
  have h : Owned s := (owned_run hfresh).hear _
  obtain ⟨k, hk⟩ := Option.isSome_iff_exists.mp (AList.lookup_isSome.mpr (of_decide_eq_true hproxied))
  refine ⟨k, hk, ?_⟩
  have hproxying : s.proxies.isProxyingRequest req.sip = true := hproxied
  rw [request_of_passes hscreen]
  show s.processScreened c env req = _
  unfold processScreened
  rw [hrouted]
  dsimp only
  rw [if_pos hproxying]
  exact processRequestWithoutRouteHeader_eq h hk

theorem proxied_request_retransmitted : ∃ k, (run (next setup) empty calling).proxies.getProxy invite.sip = some k ∧
    (run (next setup) empty calling).request setup (arrives "t1" 1) invite = (run (next setup) empty calling, [.discard]) :=
  @proxied_request setup (arrives "t1" 1) invite calling (by decide) (by decide) (by decide) (by decide)

end Drachtio.Controller.Server
