import Drachtio.Client.Requests
import Drachtio.Theorems.Client.Gate
import Drachtio.Theorems.Proxy.Replies

/-! Whether a request of an application is answered once, and to the application that made it. Its id is all that
    leads from the answer to the client, so it must be nobody else's while the request is under way, reach the
    stack thread whole, and not be forgotten where posting fails. -/

namespace Drachtio.Client

open Proxy (ProxyCore ApiReply Output Reached Writes Heeded)
open Server (isContinue)

/-! ### Requests and answers -/

/-- A notification that more follows -/
def isNotification (data : String) : Bool := decide ("|||continue".toList <:+: data.toList)

def ApiResponse.isTerminal (a : ApiResponse) : Bool := !isNotification a.data

/-- The message id of a call that is answered through `m_mapApiRequests` -/
def Call.requestId : Call → Option String
  | .wantsRequests _ | .noLongerWantsRequests _ => none
  | .respondToSipRequest id _ _ _ _ | .sendRequestInsideDialog id _ _ _ _ _ | .sendCancelRequest id _ _ _ _
  | .sendRequestOutsideDialog id _ _ _ _ _ _ | .proxyRequest id _ _ => some id

/-- The message posted for a request carries its id, as far as the buffer takes it. -/
def Job.carries (id : String) : Job → Bool
  | .proxyRequest d => d.clientMsgId == cString (msgIdLen - 1) id
  | job => job.clientMsgId == cString msgIdLen id

namespace System

/-- The request that a step makes -/
def asks (k : Config) (s : System) : Op → Option (ClientId × String)
  | .message client env msg =>
    if client ∈ s.server.clients then ((s.outcome k client env msg).call.bind (·.requestId)).map (client, ·) else none
  | _ => none

/-- A message for the stack thread or a core has still to do with the id. -/
def pendingFor (id : String) (s : System) : Bool :=
  s.server.posted.any (·.carries id) || s.proxies.any fun p => p.clientMsgId == cString (msgIdLen - 1) id && p.core.live

/-- The terminal responses with the id, queued since `s₀` -/
def answersSince (s₀ : System) (id : String) (s : System) : List ApiResponse :=
  (s.server.outbox.drop s₀.server.outbox.length).filter fun a => a.clientMsgId == id && a.isTerminal

/-- The request that a client made in `s₀` is answered, or still known. -/
def Answered (client : ClientId) (id : String) (s₀ s : System) : Prop :=
  (s.pendingFor id = false → (∃ a, s₀.answersSince id s = [a] ∧ a.client = client) ∧ s.server.apiRequests.lookup id = none) ∧
  (s.pendingFor id = true → s₀.answersSince id s = [] → s.server.apiRequests.lookup id = some client)

/-- The client stays, and the id is not taken for another request. -/
def Stays (k : Config) (client : ClientId) (id : String) (s : System) (op : Op) : Prop :=
  op ≠ .disconnect client ∧ ∀ other, s.asks k op ≠ some (other, id)

/-- Every request of a run is answered once and to its sender, as long as that stays. -/
def AnsweredOnce (k : Config) (s : System) (is : List Op) : Prop :=
  ∀ before i after client id, is = before ++ i :: after →
    (Machine.run (step k) s before).asks k i = some (client, id) →
    Machine.Meets (step k) (Stays k client id) (Machine.run (step k) s (before ++ [i])) after →
    Answered client id (Machine.run (step k) s before) (Machine.run (step k) s is)

end System

/-! ### When they are -/

/-- Nobody has a request of this id under way. -/
def System.Fresh (id : String) (s : System) : Prop :=
  id ≠ "" ∧ id ∉ s.server.apiRequests ∧ (∀ job ∈ s.server.posted, job.clientMsgId ≠ id) ∧
  ∀ p ∈ s.proxies, p.clientMsgId = id → p.core.settings.fullResponse = true → p.core.live = false

/-- The id fits the buffer of the message, which is posted, unless the failure is reported. -/
def Call.Carried (hop : Hop) : Call → Prop
  | .wantsRequests _ | .noLongerWantsRequests _ => True
  | .sendRequestInsideDialog id _ _ _ _ _ => hop = .sent → cString msgIdLen id = id
  | .proxyRequest id _ _ => hop = .sent → cString (msgIdLen - 1) id = id
  | .respondToSipRequest id _ _ _ _ | .sendCancelRequest id _ _ _ _ | .sendRequestOutsideDialog id _ _ _ _ _ _ =>
    hop = .sent ∧ cString msgIdLen id = id

/-- What a handler answers itself; the reply to a proxy command is up to the core, unless there is none. -/
def Job.reply (env : WorkEnv) : Job → Option Reply
  | .sendRequestInsideDialog d =>
    match d.requestInsideDialog env.inside with
    | .ok reply => some reply
    | .error what => some (.nok ("Server error: " ++ what))
  | .sendRequestOutsideDialog d =>
    match d.requestOutsideDialog env.outside with
    | .ok reply => some reply
    | .error what => some (.nok what)
  | .sendCancelRequest d => some (d.cancelRequest env.cancel)
  | .respondToSipRequest d => some (d.respond env.respond)
  | .proxyRequest d =>
    if env.proxy.pending.isNone = true then some (.nok ("Unknown transaction id: " ++ d.transactionId)) else none

/-- A request is made under a fresh id that fits and is posted or reported; what a handler answers does not look like a
    notification; and a core that owes the last word is not given up in silence. -/
def System.Orderly (k : Config) (s : System) : System.Op → Prop
  | .message client env msg => client ∈ s.server.clients → ∀ call, (s.outcome k client env msg).call = some call →
      call.Carried env.hop ∧ ∀ id, call.requestId = some id → s.Fresh id
  | .work env => ∀ job ∈ s.server.posted.head?, ∀ reply ∈ job.reply env, isContinue reply.data = false
  | .proxy n i _ => ∀ p ∈ s.proxies[n]?, p.core.settings.fullResponse = true → p.core.reported = false →
      Heeded p.core i.event
  | _ => True

/-! ### What becomes of an id on the server -/

/-- What the requests depend on is the same. -/
structure Alike (s t : Server) : Prop where
  clients : t.clients = s.clients
  apiRequests : t.apiRequests = s.apiRequests
  posted : t.posted = s.posted
  outbox : t.outbox = s.outbox

/-- Nothing happens to the id: others may be served, and it may be notified. -/
structure Aside (id : String) (s t : Server) : Prop where
  clients : t.clients = s.clients
  entry : t.apiRequests.lookup id = s.apiRequests.lookup id
  posted : ∃ jobs, t.posted = s.posted ++ jobs ∧ ∀ job ∈ jobs, job.clientMsgId ≠ id
  outbox : ∃ w, t.outbox = s.outbox ++ w ∧ w.filter (fun a => a.clientMsgId == id && a.isTerminal) = []

/-- The client gets the answer for the id. -/
structure Settles (client : ClientId) (id : String) (s t : Server) : Prop where
  clients : t.clients = s.clients
  entry : t.apiRequests.lookup id = none
  posted : ∃ jobs, t.posted = s.posted ++ jobs ∧ ∀ job ∈ jobs, job.clientMsgId ≠ id
  outbox : ∃ w a, t.outbox = s.outbox ++ w ∧ w.filter (fun a => a.clientMsgId == id && a.isTerminal) = [a] ∧ a.client = client

section
variable {id id' : String} {client : ClientId} {s t u : Server} {responseText data : String} {reply : Reply}

theorem Alike.of_eq (h : t = s) : Alike s t := by
  subst h
  exact ⟨rfl, rfl, rfl, rfl⟩

theorem Alike.refl : Alike s s := .of_eq rfl

theorem Alike.aside (h : Alike s t) : Aside id s t where
  clients := h.clients
  entry := by rw [h.apiRequests]
  posted := ⟨[], by rw [h.posted, List.append_nil], List.forall_mem_nil _⟩
  outbox := ⟨[], by rw [h.outbox, List.append_nil], rfl⟩

theorem Aside.trans (h : Aside id s t) (h' : Aside id t u) : Aside id s u := by
  obtain ⟨jobs, hjobs, hid⟩ := h.posted
  obtain ⟨jobs', hjobs', hid'⟩ := h'.posted
  obtain ⟨w, hw, hnone⟩ := h.outbox
  obtain ⟨w', hw', hnone'⟩ := h'.outbox
  refine ⟨h'.clients.trans h.clients, h'.entry.trans h.entry, ⟨jobs ++ jobs', by rw [hjobs', hjobs, List.append_assoc], ?_⟩,
    ⟨w ++ w', by rw [hw', hw, List.append_assoc], by rw [List.filter_append, hnone, hnone']; rfl⟩⟩
  intro job hjob
  exact (List.mem_append.mp hjob).elim (hid job) (hid' job)

theorem Settles.aside (h : Settles client id s t) (h' : Aside id t u) : Settles client id s u := by
  obtain ⟨jobs, hjobs, hid⟩ := h.posted
  obtain ⟨jobs', hjobs', hid'⟩ := h'.posted
  obtain ⟨w, a, hw, ha, hclient⟩ := h.outbox
  obtain ⟨w', hw', hnone'⟩ := h'.outbox
  refine ⟨h'.clients.trans h.clients, h'.entry.trans h.entry, ⟨jobs ++ jobs', by rw [hjobs', hjobs, List.append_assoc], ?_⟩,
    ⟨w ++ w', a, by rw [hw', hw, List.append_assoc], by rw [List.filter_append, ha, hnone']; rfl, hclient⟩⟩
  intro job hjob
  exact (List.mem_append.mp hjob).elim (hid job) (hid' job)

theorem Aside.settles (h : Aside id s t) (h' : Settles client id t u) : Settles client id s u := by
  obtain ⟨jobs, hjobs, hid⟩ := h.posted
  obtain ⟨jobs', hjobs', hid'⟩ := h'.posted
  obtain ⟨w, hw, hnone⟩ := h.outbox
  obtain ⟨w', a, hw', ha, hclient⟩ := h'.outbox
  refine ⟨h'.clients.trans h.clients, h'.entry, ⟨jobs ++ jobs', by rw [hjobs', hjobs, List.append_assoc], ?_⟩,
    ⟨w ++ w', a, by rw [hw', hw, List.append_assoc], by rw [List.filter_append, hnone, ha]; rfl, hclient⟩⟩
  intro job hjob
  exact (List.mem_append.mp hjob).elim (hid job) (hid' job)

/-! #### Routing a response -/

theorem route_other (h : id' ≠ id) : Aside id s (s.routeApiResponse id' responseText data) := by
  have herased : (s.apiRequests.erase id').lookup id = s.apiRequests.lookup id := AList.lookup_erase_ne h.symm
  unfold Server.routeApiResponse
  split
  · exact Alike.refl.aside
  · split
    · exact ⟨rfl, herased, ⟨[], (List.append_nil _).symm, List.forall_mem_nil _⟩, ⟨[], (List.append_nil _).symm, rfl⟩⟩
    · rename_i other _
      refine ⟨?_, ?_, ⟨[], ?_, List.forall_mem_nil _⟩, ⟨[⟨other, id', responseText, data⟩], ?_, ?_⟩⟩
      · split <;> rfl
      · split
        · rfl
        · exact herased
      · split <;> exact (List.append_nil _).symm
      · split <;> rfl
      · simp [h]

/-- An id without an entry gets nothing. -/
theorem route_none (h : s.apiRequests.lookup id = none) : Aside id s (s.routeApiResponse id responseText data) := by
  have hfind : s.findClientForApiRequest id = none := by
    unfold Server.findClientForApiRequest
    rw [h]
    rfl
  unfold Server.routeApiResponse
  rw [hfind]
  split
  · exact Alike.refl.aside
  · refine ⟨rfl, ?_, ⟨[], (List.append_nil _).symm, List.forall_mem_nil _⟩, ⟨[], (List.append_nil _).symm, rfl⟩⟩
    exact (AList.lookup_erase _ _).trans h.symm

theorem find_entry (h : s.apiRequests.lookup id = some client) (hc : client ∈ s.clients) :
    s.findClientForApiRequest id = some client := by
  unfold Server.findClientForApiRequest
  rw [h]
  exact Option.filter_some_pos (by simpa using hc)

theorem isContinue_of_notification (h : isNotification data = true) : isContinue data = true := by
  obtain ⟨pre, post, hdata⟩ := of_decide_eq_true h
  refine decide_eq_true ⟨pre ++ ['|', '|'], post, ?_⟩
  rw [← hdata]
  have hmark : "|||continue".toList = ['|', '|'] ++ "|continue".toList := by decide
  rw [hmark]
  simp

/-- A terminal response settles the request. -/
theorem route_settles (hid : id ≠ "") (h : s.apiRequests.lookup id = some client) (hc : client ∈ s.clients)
    (hdata : isContinue data = false) : Settles client id s (s.routeApiResponse id responseText data) := by
  have hterminal : isNotification data = false := by
    by_contra hn
    rw [isContinue_of_notification (by simpa using hn)] at hdata
    cases hdata
  unfold Server.routeApiResponse
  rw [if_neg hid, find_entry h hc]
  simp only [hdata, Bool.false_eq_true, if_false]
  exact ⟨rfl, AList.lookup_erase _ _, ⟨[], (List.append_nil _).symm, List.forall_mem_nil _⟩,
    [⟨client, id, responseText, data⟩], ⟨client, id, responseText, data⟩, rfl,
    by simp [ApiResponse.isTerminal, hterminal], rfl⟩

/-- A notification leaves the entry. -/
theorem route_notification (h : s.apiRequests.lookup id = some client) (hc : client ∈ s.clients)
    (hdata : isNotification data = true) : Aside id s (s.routeApiResponse id responseText data) := by
  unfold Server.routeApiResponse
  rw [find_entry h hc]
  split
  · exact Alike.refl.aside
  · simp only [isContinue_of_notification hdata, if_true]
    exact ⟨rfl, rfl, ⟨[], (List.append_nil _).symm, List.forall_mem_nil _⟩, ⟨[⟨client, id, responseText, data⟩], rfl,
      by simp [ApiResponse.isTerminal, hdata]⟩⟩

/-! #### What a core reports -/

section
variable {render : Proxy.Response → Sent} {w : List Output}

theorem report_cons {x : Output} : Server.report render id (x :: w) s =
    Server.report render id w (match x with
      | .api a => s.answer id (replyOf render a)
      | _ => s) := rfl

theorem report_other (h : id' ≠ id) : Aside id s (Server.report render id' w s) := by
  induction w generalizing s with
  | nil => exact Alike.refl.aside
  | cons x w ih =>
    rw [report_cons]
    refine Aside.trans ?_ ih
    split
    · exact route_other h
    · exact Alike.refl.aside

theorem report_none (h : s.apiRequests.lookup id = none) : Aside id s (Server.report render id w s) := by
  induction w generalizing s with
  | nil => exact Alike.refl.aside
  | cons x w ih =>
    have hx : Aside id s (match x with
        | .api a => s.answer id (replyOf render a)
        | _ => s) := by
      split
      · exact route_none h
      · exact Alike.refl.aside
    rw [report_cons]
    exact hx.trans (ih (hx.entry.trans h))

theorem report_silent (h : w.filterMap Output.told = []) : Alike s (Server.report render id w s) := by
  induction w with
  | nil => exact .refl
  | cons x w ih =>
    cases x with
    | api a => cases (List.filterMap_cons_some (f := Output.told) rfl).symm.trans h
    | _ => exact ih ((List.filterMap_cons_none rfl).symm.trans h)

theorem continued_notification (r : Proxy.Response) : isNotification (replyOf render (.continued r)).data = true := by
  refine decide_eq_true ⟨(render r).metaData.toList, "\r\n".toList ++ (render r).encodedMessage.toList, ?_⟩
  simp [replyOf, Reply.ok]

/-- Until the last word the entry stays; the last word settles the request. -/
theorem report_own (render : Proxy.Response → Sent) (hid : id ≠ "") (h : s.apiRequests.lookup id = some client)
    (hc : client ∈ s.clients)
    (hlast : ∀ a ∈ w.filterMap Output.told, a.isLast = true → isContinue (replyOf render a).data = false) :
    if (w.filterMap Output.told).any (·.isLast) = true then Settles client id s (Server.report render id w s)
    else Aside id s (Server.report render id w s) := by
  induction w generalizing s with
  | nil => exact Alike.refl.aside
  | cons x w ih =>
    rw [report_cons]
    cases x with
    | api a =>
      have htold : (Output.api a :: w).filterMap Output.told = a :: w.filterMap Output.told := rfl
      rw [htold] at hlast ⊢
      by_cases ha : a.isLast = true
      · have hset : Settles client id s (s.answer id (replyOf render a)) :=
          route_settles hid h hc (hlast a List.mem_cons_self ha)
        rw [if_pos (by simp [ha])]
        exact hset.aside (report_none hset.entry)
      · have hnote : Aside id s (s.answer id (replyOf render a)) := by
          cases a with
          | continued r => exact route_notification h hc (continued_notification r)
          | _ => exact absurd rfl ha
        have hrest := ih (hnote.entry.trans h) (hnote.clients ▸ hc) fun b hb => hlast b (List.mem_cons_of_mem _ hb)
        rw [List.any_cons, Bool.eq_false_iff.mpr ha, Bool.false_or]
        split
        · rename_i hany
          rw [if_pos hany] at hrest
          exact hnote.settles hrest
        · rename_i hany
          rw [if_neg hany] at hrest
          exact hnote.trans hrest
    | _ => exact ih h hc hlast

end

/-! #### The calls of the controller -/

/-- The proxy data of a call are those of its request. -/
def Call.Made : Call → Prop
  | .proxyRequest id _ d => d.clientMsgId = cString (msgIdLen - 1) id
  | _ => True

/-- The message calls nothing, or what it calls is performed. -/
def Performs (env : CommandEnv) (s : Session) (o : Outcome) : Prop :=
  Quiet s o ∨ ∃ call, o.call = some call ∧ o.session.server = (s.server.perform env.hop s.client call).1 ∧ call.Made

theorem performs_perform {env : CommandEnv} {s : Session} {call : Call} (h : call.Made) :
    Performs env s (s.perform env call) :=
  .inr ⟨call, rfl, rfl, h⟩

theorem performs_sip (env : CommandEnv) (msgId transactionId dialogId : String) (more : List String) (m : SplitMsg)
    (s : Session) :
    Performs env s (s.sip env msgId transactionId dialogId more m) := by
  unfold Session.sip
  split
  · split
    · exact .inl (quiet_answer _ _ _)
    · exact performs_perform trivial
  · split
    · exact performs_perform trivial
    · split
      · split
        · exact performs_perform trivial
        · exact .inl ⟨rfl, rfl⟩
      · split
        · exact performs_perform trivial
        · exact performs_perform trivial

theorem performs_proxy (env : CommandEnv) (msgId : String) (args : List String) (m : SplitMsg) (s : Session) :
    Performs env s (s.proxy env msgId args m) := by
  unfold Session.proxy
  split
  · split
    · exact performs_perform rfl
    · exact .inl ⟨rfl, rfl⟩
  · exact .inl (quiet_answer _ _ _)

theorem process_performs (k : Config) (env : CommandEnv) (msg : String) (s : Session) :
    Performs env s (s.processClientMessage k env msg) := by
  unfold Session.processClientMessage
  dsimp only
  split
  · exact .inl ⟨rfl, rfl⟩
  · exact .inl (quiet_answer _ _ _)
  · split
    · exact .inl (quiet_answer _ _ _)
    · split
      · split
        · exact .inl ⟨rfl, rfl⟩
        · exact .inr ⟨_, rfl, rfl, trivial⟩
      · split
        · split
          · exact .inl ⟨rfl, rfl⟩
          · exact .inr ⟨_, rfl, rfl, trivial⟩
        · split
          · split
            · exact .inl ⟨rfl, rfl⟩
            · exact .inl (quiet_authenticate _ _ _)
          · split
            · split
              · exact performs_sip _ _ _ _ _ _ _
              · exact .inl ⟨rfl, rfl⟩
            · split
              · exact performs_proxy _ _ _ _ _
              · exact .inl (quiet_answer _ _ _)

theorem alike_entered {caller : ClientId} (h : Alike s t) :
    Alike (s.addApiRequest caller id) (t.addApiRequest caller id) where
  clients := h.clients
  apiRequests := by simp only [Server.addApiRequest, h.apiRequests]
  posted := h.posted
  outbox := h.outbox

theorem alike_post {job : Job} (h : Alike s t) : Alike (s.post job) (t.post job) where
  clients := h.clients
  apiRequests := h.apiRequests
  posted := by simp only [Server.post, h.posted]
  outbox := h.outbox

theorem alike_route (h : Alike s t) :
    Alike (s.routeApiResponse id responseText data) (t.routeApiResponse id responseText data) := by
  have hfind : t.findClientForApiRequest id = s.findClientForApiRequest id := by
    simp only [Server.findClientForApiRequest, h.apiRequests, h.clients]
  unfold Server.routeApiResponse
  rw [hfind]
  split
  · exact h
  · split
    · exact ⟨h.clients, by simp only [Server.removeApiRequest, h.apiRequests], h.posted, h.outbox⟩
    · split
      · exact ⟨h.clients, h.apiRequests, h.posted, by simp only [h.outbox]⟩
      · exact ⟨h.clients, by simp only [Server.removeApiRequest, h.apiRequests], h.posted,
          by simp only [Server.removeApiRequest, h.outbox]⟩

/-- What becomes of a request at once: its message is posted, or the failure is reported. -/
def Enters (client : ClientId) (id : String) (s t : Server) : Prop :=
  (∃ job, job.clientMsgId = id ∧ job.carries id = true ∧ Alike ((s.addApiRequest client id).post job) t) ∨
  ∃ text, isContinue text = false ∧ Alike ((s.addApiRequest client id).routeApiResponse id "NOK" text) t

theorem enters_drop {hop : Hop} {job : Job} (h : Alike s t) (hsent : hop = .sent)
    (hjob : job.clientMsgId = id ∧ job.carries id = true) :
    Enters client id s ((t.addApiRequest client id).postOrDrop hop job) := by
  subst hsent
  exact .inl ⟨job, hjob.1, hjob.2, alike_post (alike_entered h)⟩

theorem enters_report {hop : Hop} {job : Job} (h : Alike s t)
    (hjob : hop = .sent → job.clientMsgId = id ∧ job.carries id = true) :
    Enters client id s ((t.addApiRequest client id).postOrReport hop id job) := by
  cases hop with
  | sent => exact .inl ⟨job, (hjob rfl).1, (hjob rfl).2, alike_post (alike_entered h)⟩
  | createFails => exact .inr ⟨_, by decide, alike_route (alike_entered h)⟩
  | sendFails => exact .inr ⟨_, by decide, alike_route (alike_entered h)⟩

theorem alike_addTransactionFor {startLine transactionId : String} :
    Alike s (s.addTransactionFor client startLine transactionId) := by
  unfold Server.addTransactionFor
  split
  · exact .refl
  · exact ⟨rfl, rfl, rfl, rfl⟩

theorem Enters.alike (h : Enters client id s t) (h' : Alike t u) : Enters client id s u := by
  have htrans : ∀ {v : Server}, Alike v t → Alike v u := fun hv =>
    ⟨h'.clients.trans hv.clients, h'.apiRequests.trans hv.apiRequests, h'.posted.trans hv.posted, h'.outbox.trans hv.outbox⟩
  rcases h with ⟨job, hjob, hcarries, ht⟩ | ⟨text, htext, ht⟩
  · exact .inl ⟨job, hjob, hcarries, htrans ht⟩
  · exact .inr ⟨text, htext, htrans ht⟩

theorem perform_enters {hop : Hop} {call : Call} (hid : call.requestId = some id) (hm : call.Made)
    (hcarried : call.Carried hop) :
    Enters client id s (s.perform hop client call).1 := by
  cases call with
  | wantsRequests _ => cases hid
  | noLongerWantsRequests _ => cases hid
  | respondToSipRequest msgId _ _ _ _ =>
    cases hid
    exact enters_drop .refl hcarried.1 ⟨hcarried.2, by simp [Job.carries, Job.clientMsgId, SipMessageData.new]⟩
  | sendCancelRequest msgId _ _ _ _ =>
    cases hid
    exact enters_drop .refl hcarried.1 ⟨hcarried.2, by simp [Job.carries, Job.clientMsgId, SipMessageData.new]⟩
  | sendRequestOutsideDialog msgId _ _ _ _ _ _ =>
    cases hid
    exact enters_drop alike_addTransactionFor hcarried.1
      ⟨hcarried.2, by simp [Job.carries, Job.clientMsgId, SipMessageData.newRouted]⟩
  | sendRequestInsideDialog msgId _ _ _ _ _ =>
    cases hid
    exact enters_report alike_addTransactionFor fun hsent =>
      ⟨hcarried hsent, by simp [Job.carries, Job.clientMsgId, SipMessageData.new]⟩
  | proxyRequest msgId _ d =>
    cases hid
    have hd : d.clientMsgId = cString (msgIdLen - 1) id := hm
    have hentered : Enters client id s ((s.addApiRequest client id).postOrReport hop id (.proxyRequest d)) :=
      enters_report .refl fun hsent => ⟨hd.trans (hcarried hsent), by simp [Job.carries, hd]⟩
    exact hentered.alike ⟨rfl, rfl, rfl, rfl⟩

/-- A call that makes no request. -/
theorem perform_idle {hop : Hop} {call : Call} (hid : call.requestId = none) : Alike s (s.perform hop client call).1 := by
  cases call with
  | wantsRequests _ => exact ⟨rfl, rfl, rfl, rfl⟩
  | noLongerWantsRequests _ => exact ⟨rfl, rfl, rfl, rfl⟩
  | _ => cases hid

/-- A request under another id -/
theorem Enters.other (h : Enters client id' s t) (hne : id' ≠ id) : Aside id s t := by
  have hadd : Aside id s (s.addApiRequest client id') :=
    ⟨rfl, AList.lookup_insertNew_ne hne.symm, ⟨[], (List.append_nil _).symm, List.forall_mem_nil _⟩,
      ⟨[], (List.append_nil _).symm, rfl⟩⟩
  rcases h with ⟨job, hjob, -, ht⟩ | ⟨text, -, ht⟩
  · have hpost : Aside id (s.addApiRequest client id') ((s.addApiRequest client id').post job) :=
      ⟨rfl, rfl, ⟨[job], rfl, fun j hj => by rw [List.mem_singleton.mp hj, hjob]; exact hne⟩,
        ⟨[], (List.append_nil _).symm, rfl⟩⟩
    exact (hadd.trans hpost).trans ht.aside
  · exact (hadd.trans (route_other hne)).trans ht.aside

/-! #### The handlers -/

/-- A handler answers once. -/
theorem doWork_answers {env : WorkEnv} {job : Job} {y : System} (h : job.reply env = some reply) :
    ∃ t, y.doWork env job = { y with server := t } ∧ Alike (y.server.answer job.clientMsgId reply) t := by
  cases job with
  | sendRequestInsideDialog d =>
    refine ⟨_, rfl, ?_⟩
    unfold Server.doSendRequestInsideDialog
    simp only [Job.reply] at h
    cases htry : d.requestInsideDialog env.inside with
    | ok r =>
      rw [htry] at h
      obtain rfl : r = reply := Option.some.inj h
      exact .refl
    | error what =>
      rw [htry] at h
      obtain rfl : Reply.nok ("Server error: " ++ what) = reply := Option.some.inj h
      exact ⟨rfl, rfl, rfl, rfl⟩
  | sendRequestOutsideDialog d =>
    refine ⟨_, rfl, ?_⟩
    unfold Server.doSendRequestOutsideDialog
    simp only [Job.reply] at h
    cases htry : d.requestOutsideDialog env.outside with
    | ok r =>
      rw [htry] at h
      obtain rfl : r = reply := Option.some.inj h
      exact .refl
    | error what =>
      rw [htry] at h
      obtain rfl : Reply.nok what = reply := Option.some.inj h
      exact ⟨rfl, rfl, rfl, rfl⟩
  | sendCancelRequest d =>
    obtain rfl : d.cancelRequest env.cancel = reply := Option.some.inj h
    exact ⟨_, rfl, .refl⟩
  | respondToSipRequest d =>
    obtain rfl : d.respond env.respond = reply := Option.some.inj h
    refine ⟨_, rfl, ?_⟩
    unfold Server.doRespondToSipRequest
    dsimp only
    split
    · exact ⟨rfl, rfl, rfl, rfl⟩
    · exact .refl
  | proxyRequest d =>
    simp only [Job.reply] at h
    split at h
    · rename_i hnone
      obtain rfl : Reply.nok ("Unknown transaction id: " ++ d.transactionId) = reply := Option.some.inj h
      refine ⟨y.server.answer d.clientMsgId (.nok ("Unknown transaction id: " ++ d.transactionId)), ?_, .refl⟩
      show y.doProxy env.proxy env.render d = _
      unfold System.doProxy
      rw [Option.isNone_iff_eq_none.mp hnone]
    · cases h

/-- A handler that does not answer itself makes a core. -/
theorem doWork_proxies {env : WorkEnv} {job : Job} {y : System} (h : job.reply env = none) :
    ∃ d req destinations, job = .proxyRequest d ∧ y.doWork env job = { y with
      server := y.server.report env.render d.clientMsgId
        (ProxyCore.doProxy d.settings env.proxy.stack req destinations).log
      proxies := y.proxies ++ [⟨d.clientMsgId, ProxyCore.doProxy d.settings env.proxy.stack req destinations⟩] } := by
  cases job with
  | sendRequestInsideDialog d =>
    simp only [Job.reply] at h
    split at h <;> cases h
  | sendRequestOutsideDialog d =>
    simp only [Job.reply] at h
    split at h <;> cases h
  | sendCancelRequest d => cases h
  | respondToSipRequest d => cases h
  | proxyRequest d =>
    simp only [Job.reply] at h
    split at h
    · cases h
    · rename_i hsome
      have hne : env.proxy.pending ≠ none := by simpa using hsome
      obtain ⟨req, hreq⟩ := Option.ne_none_iff_exists'.mp hne
      refine ⟨d, req, (env.proxy.challengedBy.map ([·])).getD d.getDestinations, rfl, ?_⟩
      show y.doProxy env.proxy env.render d = _
      unfold System.doProxy
      rw [hreq]

end

/-! ### What becomes of a request -/

/-- The core will not tell anything any more. -/
def Silent (c : ProxyCore) : Prop := c.settings.fullResponse = false ∨ c.live = false

theorem step_silent {c : ProxyCore} (hr : Reached c) (h : Silent c) (i : Proxy.Input) :
    (c.written i).filterMap Output.told = [] ∧ Silent (c.step i) := by
  rcases h with hfull | hdead
  · obtain ⟨u, hu, -⟩ := Proxy.step_speaks hr i
    obtain rfl := hu.brief hfull
    exact ⟨hu.writes.written, .inl (by rw [hu.settings, hfull])⟩
  · obtain ⟨hw, hlive⟩ := Proxy.step_dead hdead i
    exact ⟨hw.written, .inr hlive⟩

/-- The messages of an id for the stack thread -/
def System.mail (id : String) (s : System) : List Job := s.server.posted.filter (·.clientMsgId == id)

/-- The answers with an id among the responses queued after the first `m` -/
def System.answers (m : Nat) (id : String) (s : System) : List ApiResponse :=
  (s.server.outbox.drop m).filter fun a => a.clientMsgId == id && a.isTerminal

/-- Who will answer the request: the handler of its message, or the core that owes the last word. -/
inductive Underway (id : String) (s : System) : Prop
  | posted (job : Job) (hmail : s.mail id = [job]) (hcarries : job.carries id = true)
      (hsilent : ∀ p ∈ s.proxies, p.clientMsgId = id → Silent p.core)
  | proxied (n : Nat) (p : Proxying) (hmail : s.mail id = []) (hfits : cString (msgIdLen - 1) id = id)
      (hp : s.proxies[n]? = some p) (hid : p.clientMsgId = id) (hfull : p.core.settings.fullResponse = true)
      (howes : p.core.reported = false) (hreg : p.core.registered = true)
      (hothers : ∀ l q, s.proxies[l]? = some q → l ≠ n → q.clientMsgId = id → Silent q.core)

/-- The request is under way and known, or it has had its answer. -/
structure Kept (client : ClientId) (id : String) (m : Nat) (s : System) : Prop where
  connected : client ∈ s.server.clients
  reached : ∀ p ∈ s.proxies, Reached p.core
  queued : m ≤ s.server.outbox.length
  stage : (s.server.apiRequests.lookup id = some client ∧ s.answers m id = [] ∧ Underway id s) ∨
    (s.server.apiRequests.lookup id = none ∧ (∃ a, s.answers m id = [a] ∧ a.client = client) ∧ s.mail id = [])

section
variable {k : Config} {client : ClientId} {id : String} {m : Nat} {s t : System}

theorem Underway.congr (h : Underway id s) (hmail : t.mail id = s.mail id) (hproxies : t.proxies = s.proxies) :
    Underway id t := by
  cases h with
  | posted job hm hc hs => exact .posted job (hmail.trans hm) hc (hproxies ▸ hs)
  | proxied n p hm hf hp hid hfull ho hr hothers =>
    exact .proxied n p (hmail.trans hm) hf (hproxies ▸ hp) hid hfull ho hr (hproxies ▸ hothers)

theorem mail_append {jobs : List Job} (h : t.server.posted = s.server.posted ++ jobs)
    (hid : ∀ job ∈ jobs, job.clientMsgId ≠ id) : t.mail id = s.mail id := by
  have hnone : jobs.filter (·.clientMsgId == id) = [] :=
    List.filter_eq_nil_iff.mpr fun job hjob => by simpa using hid job hjob
  unfold System.mail
  rw [h, List.filter_append, hnone, List.append_nil]

theorem answers_append {w : List ApiResponse} (h : t.server.outbox = s.server.outbox ++ w) (hm : m ≤ s.server.outbox.length) :
    t.answers m id = s.answers m id ++ w.filter fun a => a.clientMsgId == id && a.isTerminal := by
  unfold System.answers
  rw [h, List.drop_append_of_le_length hm, List.filter_append]

/-- Nothing happened to the id, except that its message may have been taken and its core made or changed. -/
theorem Kept.aside (h : Kept client id m s) (ha : Aside id s.server t.server) (hreached : ∀ p ∈ t.proxies, Reached p.core)
    (hunder : s.server.apiRequests.lookup id = some client → Underway id s → Underway id t) : Kept client id m t := by
  obtain ⟨jobs, hjobs, hid⟩ := ha.posted
  obtain ⟨w, hw, hnone⟩ := ha.outbox
  have hanswers : t.answers m id = s.answers m id := by rw [answers_append hw h.queued, hnone, List.append_nil]
  refine ⟨ha.clients ▸ h.connected, hreached, ?_, ?_⟩
  · rw [hw, List.length_append]
    exact Nat.le_add_right_of_le h.queued
  · rw [ha.entry, hanswers, mail_append hjobs hid]
    exact h.stage.imp_left fun ⟨hentry, hans, hu⟩ => ⟨hentry, hans, hunder hentry hu⟩

/-- The answer comes. -/
theorem kept_of_settles (hc : client ∈ s.server.clients) (hq : m ≤ s.server.outbox.length) (hans : s.answers m id = [])
    (hmail : s.mail id = []) (ha : Settles client id s.server t.server) (hreached : ∀ p ∈ t.proxies, Reached p.core) :
    Kept client id m t := by
  obtain ⟨jobs, hjobs, hid⟩ := ha.posted
  obtain ⟨w, a, hw, hone, hclient⟩ := ha.outbox
  refine ⟨ha.clients ▸ hc, hreached, ?_, .inr ⟨ha.entry, ⟨a, ?_, hclient⟩, (mail_append hjobs hid).trans hmail⟩⟩
  · rw [hw, List.length_append]
    exact Nat.le_add_right_of_le hq
  · rw [answers_append hw hq, hans, hone]
    rfl

/-! #### The steps -/

/-- All cores are those of runs. -/
theorem step_proxies_reached (h : ∀ p ∈ s.proxies, Reached p.core) (op : System.Op) :
    ∀ p ∈ (s.step k op).proxies, Reached p.core := by
  cases op with
  | connect => exact h
  | disconnect _ => exact h
  | message _ _ _ =>
    unfold System.step
    dsimp only
    split <;> exact h
  | post _ =>
    unfold System.step
    dsimp only
    split <;> exact h
  | work env =>
    unfold System.step
    dsimp only
    split
    · exact h
    · rename_i job posted _
      cases hreply : job.reply env with
      | some reply =>
        obtain ⟨t, ht, -⟩ := doWork_answers (y := { s with server := { s.server with posted := posted } }) hreply
        rw [ht]
        exact h
      | none =>
        obtain ⟨d, req, destinations, -, ht⟩ :=
          doWork_proxies (y := { s with server := { s.server with posted := posted } }) hreply
        rw [ht]
        intro p hp
        rcases List.mem_append.mp hp with hp | hp
        · exact h p hp
        · rw [List.mem_singleton.mp hp]
          exact Proxy.doProxy_reached
  | proxy n i render =>
    unfold System.step System.proxyEvent
    dsimp only
    split
    · exact h
    · rename_i p hp
      intro q hq
      rcases List.mem_or_eq_of_mem_set hq with hq | rfl
      · exact h q hq
      · exact Proxy.step_reached (h p (List.mem_of_getElem? hp)) i

/-- The call of a message, and what it does to the server -/
theorem message_cases {caller : ClientId} {env : CommandEnv} {msg : String} (hc : caller ∈ s.server.clients)
    (ho : s.Orderly k (.message caller env msg)) :
    (s.asks k (.message caller env msg) = none ∧ Alike s.server (s.step k (.message caller env msg)).server) ∨
    ∃ id, s.asks k (.message caller env msg) = some (caller, id) ∧ s.Fresh id ∧
      Enters caller id s.server (s.step k (.message caller env msg)).server := by
  have hasks : s.asks k (.message caller env msg) =
      ((s.outcome k caller env msg).call.bind (·.requestId)).map (caller, ·) := if_pos hc
  have hstep : (s.step k (.message caller env msg)).server = (s.outcome k caller env msg).session.server := by
    show (if caller ∈ s.server.clients then { s with server := (s.outcome k caller env msg).session.server }
      else s).server = _
    rw [if_pos hc]
  rw [hasks, hstep]
  rcases process_performs k env msg ⟨caller, ∅, true, s.server⟩ with ⟨hcall, hserver⟩ | ⟨call, hcall, hserver, hmade⟩
  · have hnone : (s.outcome k caller env msg).call = none := hcall
    rw [hnone]
    exact .inl ⟨rfl, .of_eq hserver⟩
  · have hsome : (s.outcome k caller env msg).call = some call := hcall
    have hperformed : (s.outcome k caller env msg).session.server = (s.server.perform env.hop caller call).1 := hserver
    obtain ⟨hcarried, hfresh⟩ := ho hc call hsome
    rw [hsome, hperformed]
    cases hid : call.requestId with
    | none => exact .inl ⟨by simp [hid], perform_idle hid⟩
    | some id => exact .inr ⟨id, by simp [hid], hfresh id hid, perform_enters hid hmade hcarried⟩

/-- A core that is made for another request -/
theorem Underway.made (h : Underway id s) (hmail : t.mail id = s.mail id) {q : Proxying}
    (hproxies : t.proxies = s.proxies ++ [q])
    (hq : q.clientMsgId ≠ id) : Underway id t := by
  cases h with
  | posted job hm hc hs =>
    refine .posted job (hmail.trans hm) hc fun p hp hid => ?_
    rw [hproxies] at hp
    rcases List.mem_append.mp hp with hp | hp
    · exact hs p hp hid
    · rw [List.mem_singleton.mp hp] at hid
      exact absurd hid hq
  | proxied n p hm hf hp hid hfull ho hr hothers =>
    have hlen : n < s.proxies.length := (List.getElem?_eq_some_iff.mp hp).1
    refine .proxied n p (hmail.trans hm) hf ?_ hid hfull ho hr fun l r hr' hne hrid => ?_
    · rw [hproxies, List.getElem?_append_left hlen]
      exact hp
    · rw [hproxies] at hr'
      by_cases hl : l < s.proxies.length
      · rw [List.getElem?_append_left hl] at hr'
        exact hothers l r hr' hne hrid
      · have hmem : r ∈ [q] := by
          rw [List.getElem?_append_right (Nat.le_of_not_lt hl)] at hr'
          exact List.mem_of_getElem? hr'
        rw [List.mem_singleton.mp hmem] at hrid
        exact absurd hrid hq

/-- The message of another request is handled. -/
theorem Kept.work_other (h : Kept client id m s) {env : WorkEnv} {job : Job} (hjob : job.clientMsgId ≠ id)
    (hreached : ∀ p ∈ (s.doWork env job).proxies, Reached p.core) : Kept client id m (s.doWork env job) := by
  cases hreply : job.reply env with
  | some reply =>
    obtain ⟨t, ht, halike⟩ := doWork_answers (y := s) hreply
    have haside : Aside id s.server t := (route_other hjob).trans halike.aside
    rw [ht] at hreached ⊢
    obtain ⟨jobs, hjobs, hids⟩ := haside.posted
    exact h.aside haside hreached fun _ hu => hu.congr (mail_append hjobs hids) rfl
  | none =>
    obtain ⟨d, req, destinations, rfl, ht⟩ := doWork_proxies (y := s) hreply
    rw [ht] at hreached ⊢
    have haside : Aside id s.server (s.server.report env.render d.clientMsgId
        (ProxyCore.doProxy d.settings env.proxy.stack req destinations).log) := report_other hjob
    obtain ⟨jobs, hjobs, hids⟩ := haside.posted
    exact h.aside haside hreached fun _ hu => hu.made (mail_append hjobs hids) rfl hjob

/-- The message of the request is handled: its handler answers, or makes the core. -/
theorem kept_work_own (hid : id ≠ "") (hentry : s.server.apiRequests.lookup id = some client) (hc : client ∈ s.server.clients)
    (hq : m ≤ s.server.outbox.length) (hans : s.answers m id = []) (hmail : s.mail id = [])
    (hsilent : ∀ p ∈ s.proxies, p.clientMsgId = id → Silent p.core) {env : WorkEnv} {job : Job} (hjob : job.clientMsgId = id)
    (hcarries : job.carries id = true) (hdata : ∀ reply, job.reply env = some reply → isContinue reply.data = false)
    (hreached : ∀ p ∈ (s.doWork env job).proxies, Reached p.core) : Kept client id m (s.doWork env job) := by
  cases hreply : job.reply env with
  | some reply =>
    obtain ⟨t, ht, halike⟩ := doWork_answers (y := s) hreply
    have hset : Settles client id s.server (s.server.answer id reply) := route_settles hid hentry hc (hdata reply hreply)
    rw [hjob] at halike
    rw [ht] at hreached ⊢
    exact kept_of_settles hc hq hans hmail (hset.aside halike.aside) hreached
  | none =>
    obtain ⟨d, req, destinations, rfl, ht⟩ := doWork_proxies (y := s) hreply
    rw [ht] at hreached ⊢
    have hdid : d.clientMsgId = id := hjob
    have hfits : cString (msgIdLen - 1) id = id := by
      have hcut : d.clientMsgId = cString (msgIdLen - 1) id := by simpa [Job.carries] using hcarries
      rw [← hcut, hdid]
    rcases Proxy.doProxy_told d.settings env.proxy.stack req destinations with
      ⟨a, ha, htold⟩ | ⟨hfull, hreg, htold⟩
    · have hlast : a.isLast = true ∧ isContinue (replyOf env.render a).data = false := by
        rcases ha with rfl | rfl | rfl
        · exact ⟨rfl, (by decide : isContinue "done" = false)⟩
        · exact ⟨rfl, (by decide : isContinue "Rejected with 483 Too Many Hops due to Max-Forwards value of 0" = false)⟩
        · exact ⟨rfl, (by decide : isContinue "error proxying request to " = false)⟩
      have hown := report_own env.render hid hentry hc
        (w := (ProxyCore.doProxy d.settings env.proxy.stack req destinations).log) fun b hb _ => by
          rw [htold] at hb
          rw [List.mem_singleton.mp hb]
          exact hlast.2
      rw [if_pos (by rw [htold]; simp [hlast.1])] at hown
      rw [hdid] at hreached ⊢
      exact kept_of_settles hc hq hans hmail hown hreached
    · have halike : Alike s.server (s.server.report env.render d.clientMsgId
        (ProxyCore.doProxy d.settings env.proxy.stack req destinations).log) := report_silent htold
      refine ⟨halike.clients ▸ hc, hreached, halike.outbox ▸ hq, .inl ⟨?_, ?_, ?_⟩⟩
      · rw [halike.apiRequests, hentry]
      · rw [← hans]
        unfold System.answers
        rw [halike.outbox]
      · refine .proxied s.proxies.length ⟨d.clientMsgId, ProxyCore.doProxy d.settings env.proxy.stack req destinations⟩
          ?_ hfits
          List.getElem?_concat_length hdid (by simpa using hfull) ?_ hreg fun l q hq hne hqid => ?_
        · rw [← hmail]
          unfold System.mail
          rw [halike.posted]
        · unfold ProxyCore.reported
          rw [htold]
          rfl
        · have hl : l < s.proxies.length := by
            have hlt := (List.getElem?_eq_some_iff.mp hq).1
            rw [List.length_append, List.length_singleton] at hlt
            omega
          rw [List.getElem?_append_left hl] at hq
          exact hsilent q (List.mem_of_getElem? hq) hqid

/-- The stack thread takes a message. -/
theorem Kept.work (h : Kept client id m s) (hid : id ≠ "") {env : WorkEnv} (ho : s.Orderly k (.work env)) :
    Kept client id m (s.step k (.work env)) := by
  have hreached := step_proxies_reached (k := k) h.reached (.work env)
  have hdata : ∀ job ∈ s.server.posted.head?, ∀ reply, job.reply env = some reply → isContinue reply.data = false := ho
  unfold System.step at hreached ⊢
  dsimp only at hreached ⊢
  cases hposted : s.server.posted with
  | nil => exact h
  | cons job posted =>
    rw [hposted] at hreached hdata
    dsimp only at hreached ⊢
    let y : System := { s with server := { s.server with posted := posted } }
    have hmail : s.mail id = if job.clientMsgId = id then job :: y.mail id else y.mail id := by
      show s.server.posted.filter _ = if _ then job :: posted.filter _ else posted.filter _
      rw [hposted, List.filter_cons]
      simp only [beq_iff_eq]
    by_cases hjob : job.clientMsgId = id
    · rw [if_pos hjob] at hmail
      obtain ⟨hentry, hans, hunder⟩ : s.server.apiRequests.lookup id = some client ∧ s.answers m id = [] ∧ Underway id s := by
        rcases h.stage with hopen | ⟨-, -, hnone⟩
        · exact hopen
        · rw [hmail] at hnone
          cases hnone
      cases hunder with
      | posted job' hm hc hs =>
        rw [hmail] at hm
        obtain ⟨rfl, hnil⟩ := List.cons.inj hm
        have hown := hdata job rfl
        exact kept_work_own (s := y) hid hentry h.connected h.queued hans hnil hs hjob hc hown hreached
      | proxied n p hm _ _ _ _ _ _ _ =>
        rw [hmail] at hm
        cases hm
    · rw [if_neg hjob] at hmail
      have hy : Kept client id m y :=
        ⟨h.connected, h.reached, h.queued, h.stage.imp (fun ⟨hentry, hans, hu⟩ => ⟨hentry, hans, hu.congr hmail.symm rfl⟩)
          fun ⟨hentry, hans, hm⟩ => ⟨hentry, hans, hmail.symm.trans hm⟩⟩
      exact hy.work_other hjob hreached

/-- The core that owes the last word says it, or goes on owing it. -/
theorem Kept.proxy_own (h : Kept client id m s) (hid : id ≠ "") {n : Nat} {p : Proxying} (hp : s.proxies[n]? = some p)
    (hpid : p.clientMsgId = id) (hmail : s.mail id = []) (hfits : cString (msgIdLen - 1) id = id)
    (hfull : p.core.settings.fullResponse = true) (howes : p.core.reported = false) (hreg : p.core.registered = true)
    (hothers : ∀ l q, s.proxies[l]? = some q → l ≠ n → q.clientMsgId = id → Silent q.core)
    (hentry : s.server.apiRequests.lookup id = some client) (hans : s.answers m id = []) {i : Proxy.Input}
    (hheed : Heeded p.core i.event) {render : Proxy.Response → Sent} {t : System}
    (hserver : t.server = s.server.report render p.clientMsgId (p.core.written i))
    (hproxies : t.proxies = s.proxies.set n { p with core := p.core.step i }) (hreached : ∀ q ∈ t.proxies, Reached q.core) :
    Kept client id m t := by
  have hr : Reached p.core := h.reached p (List.mem_of_getElem? hp)
  have hlen : n < s.proxies.length := (List.getElem?_eq_some_iff.mp hp).1
  obtain ⟨u, hu, hkeeps⟩ := Proxy.step_speaks hr i
  have htold : (p.core.written i).filterMap Output.told = u := hu.writes.written
  have hown := report_own render hid hentry h.connected (w := p.core.written i) fun a ha hlast => by
    rw [htold] at ha
    cases a with
    | nok text => exact Bool.noConfusion (hu.accepted _ ha)
    | done => exact (by decide : isContinue "done" = false)
    | continued r => cases hlast
  rw [htold, ← hpid, ← hserver, hpid] at hown
  split at hown
  · exact kept_of_settles h.connected h.queued hans hmail hown hreached
  · rename_i hnone
    obtain ⟨jobs, hjobs, hids⟩ := hown.posted
    refine h.aside hown hreached fun _ _ => ?_
    have hquiet : u.any (·.isLast) = false := by simpa using hnone
    refine .proxied n { p with core := p.core.step i } ((mail_append hjobs hids).trans hmail) hfits ?_ hpid ?_ ?_ ?_
      fun l q hq hne hqid => ?_
    · rw [hproxies, List.getElem?_set_self hlen]
    · rw [hu.settings, hfull]
    · unfold ProxyCore.reported at howes ⊢
      rw [Proxy.step_log, List.filterMap_append, List.any_append, htold, howes, hquiet]
      rfl
    · refine (hkeeps hfull hreg hheed).resolve_right fun hdone => ?_
      exact Bool.false_ne_true (hquiet.symm.trans (List.any_eq_true.mpr ⟨.done, hdone, rfl⟩))
    · rw [hproxies, List.getElem?_set_ne (Ne.symm hne)] at hq
      exact hothers l q hq hne hqid

/-- Something happens to a core. -/
theorem Kept.proxy (h : Kept client id m s) (hid : id ≠ "") {n : Nat} {i : Proxy.Input} {render : Proxy.Response → Sent}
    (ho : s.Orderly k (.proxy n i render)) : Kept client id m (s.step k (.proxy n i render)) := by
  have hreached := step_proxies_reached (k := k) h.reached (.proxy n i render)
  have hheed : ∀ p ∈ s.proxies[n]?, p.core.settings.fullResponse = true → p.core.reported = false →
    Heeded p.core i.event := ho
  unfold System.step System.proxyEvent at hreached ⊢
  dsimp only at hreached ⊢
  cases hp : s.proxies[n]? with
  | none => exact h
  | some p =>
    rw [hp] at hreached hheed
    dsimp only at hreached ⊢
    have hr : Reached p.core := h.reached p (List.mem_of_getElem? hp)
    have hlen : n < s.proxies.length := (List.getElem?_eq_some_iff.mp hp).1
    let q : Proxying := { p with core := p.core.step i }
    let t : System := { s with
      server := s.server.report render p.clientMsgId ((p.core.step i).log.drop p.core.log.length), proxies :=
        s.proxies.set n q }
    -- A core that is silent, or another request's, leaves the request where it is.
    have quiet : Aside id s.server t.server → (p.clientMsgId = id → Silent p.core) → Kept client id m t := fun haside hs => by
      obtain ⟨jobs, hjobs, hids⟩ := haside.posted
      have hmail : t.mail id = s.mail id := mail_append hjobs hids
      have hsq : q.clientMsgId = id → Silent q.core := fun hq => (step_silent hr (hs hq) i).2
      refine h.aside haside hreached fun _ hu => ?_
      cases hu with
      | posted job hm hc hsilent =>
        refine .posted job (hmail.trans hm) hc fun r hrmem hrid => ?_
        rcases List.mem_or_eq_of_mem_set hrmem with hrmem | rfl
        · exact hsilent r hrmem hrid
        · exact hsq hrid
      | proxied l r hm hf hl hrid hfull howes hreg hothers =>
        have hne : n ≠ l := fun hnl => by
          subst hnl
          obtain rfl : p = r := Option.some.inj (hp.symm.trans hl)
          rcases hs hrid with hbrief | hdead
          · rw [hfull] at hbrief
            cases hbrief
          · rw [(Proxy.live_eq_false.mp hdead).1] at hreg
            cases hreg
        refine .proxied l r (hmail.trans hm) hf ((List.getElem?_set_ne hne).trans hl) hrid hfull howes hreg fun l' r' hl'
          hne' hrid' => ?_
        by_cases hnl : n = l'
        · subst hnl
          rw [List.getElem?_set_self hlen] at hl'
          obtain rfl : q = r' := Option.some.inj hl'
          exact hsq hrid'
        · rw [List.getElem?_set_ne hnl] at hl'
          exact hothers l' r' hl' hne' hrid'
    by_cases hpid : p.clientMsgId = id
    · by_cases hs : Silent p.core
      · exact quiet (report_silent (step_silent hr hs i).1).aside fun _ => hs
      · rcases h.stage with ⟨hentry, hans, hu⟩ | ⟨hentry, -, -⟩
        · cases hu with
          | posted job _ _ hsilent => exact absurd (hsilent p (List.mem_of_getElem? hp) hpid) hs
          | proxied l r hm hf hl hrid hfull howes hreg hothers =>
            by_cases hnl : n = l
            · subst hnl
              obtain rfl : p = r := Option.some.inj (hp.symm.trans hl)
              exact h.proxy_own hid hp hpid hm hf hfull howes hreg hothers hentry hans (hheed p rfl hfull howes) rfl rfl
                hreached
            · exact absurd (hothers n p hp hnl hpid) hs
        · have haside : Aside id s.server t.server := hpid ▸ report_none (hpid.symm ▸ hentry)
          refine h.aside haside hreached fun hsome => ?_
          rw [hentry] at hsome
          cases hsome
    · exact quiet (report_other hpid) fun hq => absurd hq hpid

theorem Kept.step (h : Kept client id m s) (hid : id ≠ "") {op : System.Op} (ho : s.Orderly k op)
    (hstays : System.Stays k client id s op) : Kept client id m (s.step k op) := by
  have same : ∀ {t : System}, client ∈ t.server.clients → t.proxies = s.proxies →
      t.server.apiRequests = s.server.apiRequests → t.server.posted = s.server.posted →
      t.server.outbox = s.server.outbox → Kept client id m t := by
    intro t hc hproxies ha hm hout
    refine ⟨hc, hproxies ▸ h.reached, hout ▸ h.queued, ?_⟩
    have hmail : t.mail id = s.mail id := mail_append (hm.trans (List.append_nil _).symm) nofun
    unfold System.answers
    rw [ha, hout, hmail]
    exact h.stage.imp_left fun ⟨hentry, hans, hu⟩ => ⟨hentry, hans, hu.congr hmail hproxies⟩
  cases op with
  | connect => exact same (Finset.mem_insert_of_mem h.connected) rfl rfl rfl rfl
  | disconnect other =>
    have hne : client ≠ other := fun heq => hstays.1 (heq ▸ rfl)
    exact same (Finset.mem_erase_of_ne_of_mem hne h.connected) rfl rfl rfl rfl
  | message caller env msg =>
    by_cases hc : caller ∈ s.server.clients
    · have hreached := step_proxies_reached (k := k) h.reached (.message caller env msg)
      have hproxies : (s.step k (.message caller env msg)).proxies = s.proxies := by
        unfold System.step
        dsimp only
        split <;> rfl
      have haside : Aside id s.server (s.step k (.message caller env msg)).server := by
        rcases message_cases hc ho with ⟨-, halike⟩ | ⟨id', hasks, -, henters⟩
        · exact halike.aside
        · refine henters.other fun heq => ?_
          subst heq
          exact hstays.2 caller hasks
      obtain ⟨jobs, hjobs, hids⟩ := haside.posted
      exact h.aside haside hreached fun _ hu => hu.congr (mail_append hjobs hids) hproxies
    · have hstep : s.step k (.message caller env msg) = s := if_neg hc
      exact hstep.symm ▸ h
  | post job =>
    by_cases hjob : job.clientMsgId = ""
    · have hstep : s.step k (.post job) = { s with server := s.server.post job } := if_pos hjob
      rw [hstep]
      have haside : Aside id s.server (s.server.post job) := by
        refine ⟨rfl, rfl, ⟨[job], rfl, fun j hj => ?_⟩, ⟨[], (List.append_nil _).symm, rfl⟩⟩
        rw [List.mem_singleton.mp hj, hjob]
        exact hid.symm
      obtain ⟨jobs, hjobs, hids⟩ := haside.posted
      exact h.aside haside h.reached fun _ hu => hu.congr (mail_append hjobs hids) rfl
    · have hstep : s.step k (.post job) = s := if_neg hjob
      exact hstep.symm ▸ h
  | work env => exact h.work hid ho
  | proxy n i render => exact h.proxy hid ho

/-- The request is made. -/
theorem kept_of_ask (hreached : ∀ p ∈ s.proxies, Reached p.core) {op : System.Op} (ho : s.Orderly k op)
    (hasks : s.asks k op = some (client, id)) :
    id ≠ "" ∧ Kept client id s.server.outbox.length (s.step k op) := by
  cases op with
  | message caller env msg =>
    have hc : caller ∈ s.server.clients := by
      by_contra hc
      rw [show s.asks k (.message caller env msg) = none from if_neg hc] at hasks
      cases hasks
    rcases message_cases hc ho with ⟨hnone, -⟩ | ⟨id', hsome, ⟨hid, hfresh, hjobs, hcores⟩, henters⟩
    · rw [hnone] at hasks
      cases hasks
    · rw [hsome] at hasks
      obtain ⟨rfl, rfl⟩ := Prod.mk.inj (Option.some.inj hasks)
      refine ⟨hid, ?_⟩
      have hproxies : (s.step k (.message caller env msg)).proxies = s.proxies := by
        unfold System.step
        dsimp only
        split <;> rfl
      have hmail : s.mail id' = [] := List.filter_eq_nil_iff.mpr fun job hjob => by simpa using hjobs job hjob
      have hentered : (s.server.addApiRequest caller id').apiRequests.lookup id' = some caller := by
        show (AList.insertNew id' caller s.server.apiRequests).lookup id' = _
        rw [AList.insertNew_of_notMem hfresh, AList.lookup_insert]
      rcases henters with ⟨job, hjob, hcarries, halike⟩ | ⟨text, htext, halike⟩
      · have hposted : (s.step k (.message caller env msg)).server.posted = s.server.posted ++ [job] := halike.posted
        have hout : (s.step k (.message caller env msg)).server.outbox = s.server.outbox := halike.outbox
        refine ⟨?_, hproxies ▸ hreached, Nat.le_of_eq (by rw [hout]),
          .inl ⟨?_, ?_, .posted job ?_ hcarries fun p hp hpid => ?_⟩⟩
        · rw [halike.clients]
          exact hc
        · rw [halike.apiRequests]
          exact hentered
        · unfold System.answers
          rw [hout, List.drop_length]
          rfl
        · unfold System.mail at hmail ⊢
          rw [hposted, List.filter_append, hmail]
          simp [hjob]
        · rw [hproxies] at hp
          by_cases hfull : p.core.settings.fullResponse = true
          · exact .inr (hcores p hp hpid hfull)
          · exact .inl (by simpa using hfull)
      · have hset : Settles caller id' (s.server.addApiRequest caller id') (s.step k (.message caller env msg)).server :=
          (route_settles hid hentered hc htext).aside halike.aside
        refine kept_of_settles (s := { s with server := s.server.addApiRequest caller id' }) hc (Nat.le_refl _) ?_ hmail hset
          (hproxies ▸ hreached)
        unfold System.answers
        rw [show (s.server.addApiRequest caller id').outbox = s.server.outbox from rfl, List.drop_length]
        rfl
  | _ => cases hasks

theorem Kept.answered {s₀ : System} (h : Kept client id s₀.server.outbox.length s) : System.Answered client id s₀ s := by
  rcases h.stage with ⟨hentry, hans, hunder⟩ | ⟨hentry, hone, -⟩
  · have hpending : s.pendingFor id = true := by
      unfold System.pendingFor
      rw [Bool.or_eq_true]
      cases hunder with
      | posted job hm hc hs =>
        have hmem : job ∈ s.mail id := hm ▸ List.mem_singleton.mpr rfl
        exact .inl (List.any_eq_true.mpr ⟨job, (List.mem_filter.mp hmem).1, hc⟩)
      | proxied n p hm hf hp hid hfull howes hreg hothers =>
        refine .inr (List.any_eq_true.mpr ⟨p, List.mem_of_getElem? hp, ?_⟩)
        simp [hid, hf, ProxyCore.live, hreg]
    exact ⟨fun hnone => absurd (hpending.symm.trans hnone) Bool.noConfusion, fun _ _ => hentry⟩
  · refine ⟨fun _ => ⟨hone, hentry⟩, fun _ hnone => ?_⟩
    obtain ⟨a, ha, -⟩ := hone
    exact absurd (ha.symm.trans hnone) (List.cons_ne_nil _ _)

end

/-! ### Runs -/

theorem run_proxies_reached (k : Config) (clients : Finset ClientId) (is : List System.Op) :
    ∀ p ∈ (Machine.run (System.step k) (System.start clients) is).proxies, Reached p.core :=
  Machine.run_invariant (I := fun s : System => ∀ p ∈ s.proxies, Reached p.core) (fun _ op h => step_proxies_reached h op)
    fun _ hp => absurd hp List.not_mem_nil

/-- A request outside a dialog -/
def optionsMsg : String := "7|sip||\r\nOPTIONS sip:bob@example.com SIP/2.0"

def plainSent : Sent := ⟨"network", "OPTIONS"⟩

def plainWork : WorkEnv where
  inside := ⟨.options, none, none, plainSent⟩
  outside := ⟨none, plainSent⟩
  cancel := ⟨false, none⟩
  respond := ⟨none, "", false, plainSent⟩
  proxy := ⟨none, none, ⟨fun _ => true, fun _ => true, fun _ => true, fun _ => true, true, 0, 0, fun _ => 0⟩⟩
  render := fun _ => plainSent

end Drachtio.Client
