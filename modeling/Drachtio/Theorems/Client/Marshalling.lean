import Drachtio.Theorems.Client.Answers
import Mathlib.Data.List.TakeWhile

/-! Whether the stack thread reads what an application wrote. The texts of a command go into character arrays of fixed
    size and are read back up to their first zero; nothing checks that they fit. -/

namespace Drachtio.Client

open Proxy (ProxyCore Output)

/-! ### Texts in arrays -/

/-- A text that an array of so many characters gives back -/
def Storable (n : Nat) (s : String) : Prop := s.length ≤ n ∧ '\x00' ∉ s.toList

/-- What is read back of a bounded array, up to the first entry that stops the reader, is what was put into it. -/
theorem takeWhile_take_map_eq_iff {α : Type} {p : α → Bool} {f : α → α} {n : Nat} {l : List α} :
    ((l.map f).take n).takeWhile p = l ↔ l.length ≤ n ∧ ∀ x ∈ l, p x = true ∧ f x = x := by
  constructor
  · intro h
    have hlen := congrArg List.length h
    have hwhile := (List.takeWhile_prefix p (l := (l.map f).take n)).length_le
    rw [List.length_take, List.length_map] at hwhile
    have hfew : l.length ≤ n := by omega
    rw [List.take_of_length_le (by rwa [List.length_map])] at h
    have hpre := List.takeWhile_prefix p (l := l.map f)
    rw [h] at hpre
    have hmap : l.map f = l.map id := by
      rw [List.map_id]
      exact (hpre.eq_of_length (List.length_map _).symm).symm
    refine ⟨hfew, fun x hx => ⟨?_, List.map_inj_left.mp hmap x hx⟩⟩
    rw [← h] at hx
    exact List.mem_takeWhile_imp hx
  · rintro ⟨hfew, hall⟩
    have hmap : l.map f = l := by
      rw [List.map_inj_left.mpr fun x hx => (hall x hx).2, List.map_id']
    rw [hmap, List.take_of_length_le hfew, List.takeWhile_eq_self_iff]
    exact fun x hx => (hall x hx).1

theorem cString_eq_iff {n : Nat} {s : String} : cString n s = s ↔ Storable n s := by
  have htexts : cString n s = s ↔ ((s.toList.map id).take n).takeWhile (· ≠ '\x00') = s.toList := by
    rw [cString, ← String.toList_inj, String.toList_ofList, List.map_id]
  rw [htexts, takeWhile_take_map_eq_iff, String.length_toList, Storable]
  refine and_congr_right fun _ => ⟨fun h hzero => ?_, fun h c hc => ⟨?_, rfl⟩⟩
  · simpa using (h _ hzero).1
  · exact decide_eq_true fun heq => h (heq ▸ hc)

theorem storable_empty {n : Nat} : Storable n "" := ⟨Nat.zero_le n, List.not_mem_nil⟩

namespace SipMessageData

/-- Every text fits its array; the two constructors disagree about the dialog id. -/
structure Fits (dialogLen : Nat) (d : SipMessageData) : Prop where
  clientMsgId : Storable msgIdLen d.clientMsgId
  transactionId : Storable msgIdLen d.transactionId
  dialogId : Storable dialogLen d.dialogId
  startLine : Storable startLen d.startLine
  headers : Storable hdrLen d.headers
  body : Storable bodyLen d.body
  routeUrl : Storable startLen d.routeUrl

variable {clientMsgId transactionId dialogId startLine headers body routeUrl : String}

theorem new_eq_iff : new clientMsgId transactionId dialogId startLine headers body =
    ⟨clientMsgId, transactionId, dialogId, startLine, headers, body, ""⟩ ↔
    Fits maxDialogIdLen ⟨clientMsgId, transactionId, dialogId, startLine, headers, body, ""⟩ := by
  simp only [new, mk.injEq, cString_eq_iff, and_true]
  constructor
  · rintro ⟨hid, htransaction, hdialog, hstart, hheaders, hbody⟩
    exact ⟨hid, htransaction, hdialog, hstart, hheaders, hbody, storable_empty⟩
  · intro h
    exact ⟨h.clientMsgId, h.transactionId, h.dialogId, h.startLine, h.headers, h.body⟩

theorem newRouted_eq_iff : newRouted clientMsgId transactionId dialogId startLine headers body routeUrl =
    ⟨clientMsgId, transactionId, dialogId, startLine, headers, body, routeUrl⟩ ↔
    Fits msgIdLen ⟨clientMsgId, transactionId, dialogId, startLine, headers, body, routeUrl⟩ := by
  simp only [newRouted, mk.injEq, cString_eq_iff]
  constructor
  · rintro ⟨hid, htransaction, hdialog, hstart, hheaders, hbody, hroute⟩
    exact ⟨hid, htransaction, hdialog, hstart, hheaders, hbody, hroute⟩
  · intro h
    exact ⟨h.clientMsgId, h.transactionId, h.dialogId, h.startLine, h.headers, h.body, h.routeUrl⟩

end SipMessageData

namespace ProxyData

/-- The arguments of `proxyRequest`, as its message has them -/
def copied (d : ProxyData) : ProxyData :=
  .new d.clientMsgId d.transactionId d.recordRoute d.fullResponse d.followRedirects d.simultaneous d.provisionalTimeout
    d.finalTimeout d.destinations d.headers

/-- What the getters return of a message is what went into it. -/
structure Reads (asked d : ProxyData) : Prop where
  clientMsgId : d.clientMsgId = asked.clientMsgId
  transactionId : d.transactionId = asked.transactionId
  recordRoute : d.recordRoute = asked.recordRoute
  fullResponse : d.fullResponse = asked.fullResponse
  followRedirects : d.followRedirects = asked.followRedirects
  simultaneous : d.simultaneous = asked.simultaneous
  provisionalTimeout : d.provisionalTimeout = asked.provisionalTimeout
  finalTimeout : d.finalTimeout = asked.finalTimeout
  destinations : d.getDestinations = asked.destinations
  headers : d.headers = asked.headers

/-- Every text fits its array, and no destination is empty. -/
structure Fits (d : ProxyData) : Prop where
  clientMsgId : Storable (msgIdLen - 1) d.clientMsgId
  transactionId : Storable (msgIdLen - 1) d.transactionId
  provisionalTimeout : Storable 15 d.provisionalTimeout
  finalTimeout : Storable 15 d.finalTimeout
  few : d.destinations.length ≤ maxDestinations
  destinations : ∀ dest ∈ d.destinations, dest ≠ "" ∧ Storable (uriLen - 1) dest
  headers : Storable (hdrStrLen - 1) d.headers

/-- The texts other than the destinations have an array each. -/
theorem copies_inBounds : ∀ c ∈ copies [], c.inBounds = true := by decide

theorem inBounds_iff {destinations : List String} :
    (∀ c ∈ copies destinations, c.inBounds = true) ↔ destinations.length ≤ maxDestinations := by
  constructor
  · intro h
    by_contra hmany
    have hrow : maxDestinations < destinations.length := by omega
    have hmem : (destinations[maxDestinations], maxDestinations) ∈ destinations.zipIdx :=
      List.mem_zipIdx_iff_getElem?.mpr (List.getElem?_eq_getElem hrow)
    have hbad := h ⟨maxDestinations, maxDestinations, uriLen - 1, uriLen⟩
      (List.mem_append_right _ (List.mem_map.mpr ⟨_, hmem, rfl⟩))
    exact absurd hbad (by decide)
  · intro hfew c hc
    rcases List.mem_append.mp hc with hc | hc
    · exact copies_inBounds c hc
    · obtain ⟨x, hx, rfl⟩ := List.mem_map.mp hc
      have hrow := (List.mem_zipIdx' hx).1
      simp only [Copy.inBounds, Bool.and_eq_true, decide_eq_true_eq]
      exact ⟨by omega, by decide⟩

/-- The getter gives the destinations back when they are few, none is empty and all fit. -/
theorem getDestinations_copied (d : ProxyData) : d.copied.getDestinations = d.destinations ↔
    d.destinations.length ≤ maxDestinations ∧ ∀ dest ∈ d.destinations, dest ≠ "" ∧ Storable (uriLen - 1) dest := by
  have hget : d.copied.getDestinations =
      ((d.destinations.map (cString (uriLen - 1))).take maxDestinations).takeWhile (· ≠ "") := rfl
  rw [hget, takeWhile_take_map_eq_iff]
  simp only [decide_eq_true_eq, cString_eq_iff]

theorem reads_copied_iff {d : ProxyData} : d.Reads d.copied ↔ d.Fits := by
  constructor
  · intro h
    obtain ⟨hfew, hall⟩ := (getDestinations_copied d).mp h.destinations
    exact ⟨cString_eq_iff.mp h.clientMsgId, cString_eq_iff.mp h.transactionId, cString_eq_iff.mp h.provisionalTimeout,
      cString_eq_iff.mp h.finalTimeout, hfew, hall, cString_eq_iff.mp h.headers⟩
  · intro h
    exact ⟨cString_eq_iff.mpr h.clientMsgId, cString_eq_iff.mpr h.transactionId, rfl, rfl, rfl, rfl,
      cString_eq_iff.mpr h.provisionalTimeout, cString_eq_iff.mpr h.finalTimeout,
      (getDestinations_copied d).mpr ⟨h.few, h.destinations⟩, cString_eq_iff.mpr h.headers⟩

end ProxyData

/-! ### Errors -/

/-- The client hears of an error under the id when the stack thread takes a message. -/
def System.Refuses (client : ClientId) (id : String) (env : WorkEnv) (job : Job) (s : System) : Prop :=
  ∃ a ∈ s.answersSince id (s.doWork env job), a.client = client ∧ a.responseText = "NOK"

/-- What the stack thread gets reads as it should, or the client that waits under the id hears of an error, whatever the
    stack thread meets. -/
def Server.Delivers (client : ClientId) (id : String) (reads : Job → Prop) (s t : Server) : Prop :=
  ∀ job ∈ t.posted.drop s.posted.length, reads job ∨
    ∀ (u : System) (env : WorkEnv), u.server.findClientForApiRequest id = some client → u.Refuses client id env job

section
variable {client : ClientId} {id : String} {s t : Server} {reply : Reply} {w : List Output} {render : Proxy.Response → Sent}
  {reads : Job → Prop} {job : Job}

/-- All that was answered is in order. -/
def Server.Content (s : Server) : Prop := ∀ a ∈ s.outbox, a.responseText = "OK"

theorem Server.Content.answer (h : s.Content) (hreply : reply.responseText = "OK") : (s.answer id reply).Content := by
  unfold Server.answer Server.routeApiResponse
  split
  · exact h
  · split
    · exact h
    · intro a ha
      rcases List.mem_append.mp ha with ha | ha
      · refine h a ?_
        split at ha <;> exact ha
      · obtain rfl := List.mem_singleton.mp ha
        exact hreply

theorem Server.Content.report (h : s.Content) (hw : ∀ a ∈ w.filterMap Output.told, (replyOf render a).responseText = "OK") :
    (s.report render id w).Content := by
  induction w generalizing s with
  | nil => exact h
  | cons x w ih =>
    rw [report_cons]
    cases x with
    | api a =>
      have htold : (Output.api a :: w).filterMap Output.told = a :: w.filterMap Output.told := rfl
      rw [htold] at hw
      exact ih (h.answer (hw a List.mem_cons_self)) fun b hb => hw b (List.mem_cons_of_mem _ hb)
    | _ => exact ih h hw

/-- A stack thread to which everything succeeds, with a request that was challenged and comes again. -/
def smoothWork : WorkEnv where
  inside := ⟨.invite, some 200, none, ⟨"", ""⟩⟩
  outside := ⟨none, ⟨"", ""⟩⟩
  cancel := ⟨true, some ("", ⟨"", ""⟩)⟩
  respond := ⟨none, "", false, ⟨"", ""⟩⟩
  proxy := ⟨some ⟨.invite, none⟩, some "sip:target", .reliable⟩
  render := fun _ => ⟨"", ""⟩

/-- A core that can send its request reports no error. -/
theorem doProxy_told (k : Proxy.Settings) : ∀ a ∈ (ProxyCore.doProxy k .reliable ⟨.invite, none⟩ ["sip:target"]).log.filterMap
    Output.told, a = .done := by
  have htold : (ProxyCore.doProxy k .reliable ⟨.invite, none⟩ ["sip:target"]).log.filterMap Output.told =
      if k.fullResponse = true then [] else [.done] := by
    obtain ⟨launch, full, follow, timeout⟩ := k
    cases launch <;> cases full <;> rfl
  rw [htold]
  intro a ha
  split at ha
  · cases ha
  · exact List.mem_singleton.mp ha

theorem doWork_content {s : System} (h : s.server.Content) (job : Job) : (s.doWork smoothWork job).server.Content := by
  cases job with
  | sendRequestInsideDialog d => exact h.answer rfl
  | sendRequestOutsideDialog d => exact h.answer rfl
  | sendCancelRequest d => exact h.answer rfl
  | respondToSipRequest d => exact h.answer rfl
  | proxyRequest d =>
    refine h.report fun a ha => ?_
    rw [doProxy_told d.settings a ha]
    rfl

/-- Whatever message the stack thread takes, it may succeed with it. -/
theorem exists_not_refuses (client : ClientId) (id : String) (job : Job) : ∃ (u : System) (env : WorkEnv),
    u.server.findClientForApiRequest id = some client ∧ ¬u.Refuses client id env job := by
  let server : Server := ⟨{client}, [], ∅, AList.insert id client ∅, ∅, ∅, [], []⟩
  have hentry : server.apiRequests.lookup id = some client := AList.lookup_insert _
  have hfind : server.findClientForApiRequest id = some client := find_entry hentry (Finset.mem_singleton_self _)
  have hcontent : server.Content := List.forall_mem_nil _
  refine ⟨⟨server, 0, []⟩, smoothWork, hfind, ?_⟩
  rintro ⟨a, ha, -, hnok⟩
  have hmem := List.mem_of_mem_drop (List.mem_filter.mp ha).1
  have hok := doWork_content (s := ⟨server, 0, []⟩) hcontent job a hmem
  rw [hok] at hnok
  exact absurd hnok (by decide)

theorem delivers_posted (hposted : t.posted = s.posted ++ [job]) : Server.Delivers client id reads s t ↔ reads job := by
  unfold Server.Delivers
  rw [hposted, List.drop_left]
  constructor
  · intro h
    rcases h job List.mem_cons_self with hreads | hrefused
    · exact hreads
    · obtain ⟨u, env, hfind, hnot⟩ := exists_not_refuses client id job
      exact absurd (hrefused u env hfind) hnot
  · intro hreads job' hjob
    obtain rfl := List.mem_singleton.mp hjob
    exact .inl hreads

theorem delivers_nothing (hposted : t.posted = s.posted) : Server.Delivers client id reads s t := by
  unfold Server.Delivers
  rw [hposted, List.drop_length]
  exact List.forall_mem_nil _

/-! ### Posting -/

theorem posted_addTransactionFor {startLine transactionId : String} :
    (s.addTransactionFor client startLine transactionId).posted = s.posted := by
  unfold Server.addTransactionFor
  split <;> rfl

theorem posted_routeApiResponse {responseText data : String} :
    (s.routeApiResponse id responseText data).posted = s.posted := by
  unfold Server.routeApiResponse
  split
  · rfl
  · split
    · rfl
    · dsimp only
      split <;> rfl

theorem posted_postOrReport {hop : Hop} :
    (s.postOrReport hop id job).posted = s.posted ++ if hop = .sent then [job] else [] := by
  cases hop with
  | sent => rfl
  | createFails => exact posted_routeApiResponse.trans (List.append_nil _).symm
  | sendFails => exact posted_routeApiResponse.trans (List.append_nil _).symm

theorem posted_postOrDrop {hop : Hop} : (s.postOrDrop hop job).posted = s.posted ++ if hop = .sent then [job] else [] := by
  cases hop with
  | sent => rfl
  | createFails => exact (List.append_nil _).symm
  | sendFails => exact (List.append_nil _).symm

/-- What the caller of `postOrReport` or `postOrDrop` comes to. -/
theorem delivers_hop {hop : Hop} (hposted : t.posted = s.posted ++ if hop = .sent then [job] else []) :
    Server.Delivers client id reads s t ↔ (hop = .sent → reads job) := by
  by_cases hsent : hop = .sent
  · rw [if_pos hsent] at hposted
    rw [delivers_posted hposted]
    exact ⟨fun h _ => h, fun h => h hsent⟩
  · rw [if_neg hsent, List.append_nil] at hposted
    exact ⟨fun _ h => absurd h hsent, fun _ => delivers_nothing hposted⟩

end

/-! ### Commands for the stack -/

/-- The message with the texts as the command has them -/
def Call.verbatim : Call → Option Job
  | .respondToSipRequest clientMsgId transactionId startLine headers body =>
    some (.respondToSipRequest ⟨clientMsgId, transactionId, "", startLine, headers, body, ""⟩)
  | .sendRequestInsideDialog clientMsgId dialogId startLine headers body transactionId =>
    some (.sendRequestInsideDialog ⟨clientMsgId, transactionId, dialogId, startLine, headers, body, ""⟩)
  | .sendCancelRequest clientMsgId transactionId startLine headers body =>
    some (.sendCancelRequest ⟨clientMsgId, transactionId, "", startLine, headers, body, ""⟩)
  | .sendRequestOutsideDialog clientMsgId startLine headers body transactionId dialogId routeUrl =>
    some (.sendRequestOutsideDialog ⟨clientMsgId, transactionId, dialogId, startLine, headers, body, routeUrl⟩)
  | .wantsRequests _ | .noLongerWantsRequests _ | .proxyRequest _ _ _ => none

/-- The message that is posted -/
def Call.posting : Call → Option Job
  | .respondToSipRequest clientMsgId transactionId startLine headers body =>
    some (.respondToSipRequest (.new clientMsgId transactionId "" startLine headers body))
  | .sendRequestInsideDialog clientMsgId dialogId startLine headers body transactionId =>
    some (.sendRequestInsideDialog (.new clientMsgId transactionId dialogId startLine headers body))
  | .sendCancelRequest clientMsgId transactionId startLine headers body =>
    some (.sendCancelRequest (.new clientMsgId transactionId "" startLine headers body))
  | .sendRequestOutsideDialog clientMsgId startLine headers body transactionId dialogId routeUrl =>
    some (.sendRequestOutsideDialog (.newRouted clientMsgId transactionId dialogId startLine headers body routeUrl))
  | .proxyRequest _ _ d => some (.proxyRequest d)
  | .wantsRequests _ | .noLongerWantsRequests _ => none

/-- The arrays of a message hold its texts. -/
def Job.Fits : Job → Prop
  | .sendRequestOutsideDialog d => d.Fits msgIdLen
  | .sendRequestInsideDialog d | .sendCancelRequest d | .respondToSipRequest d => d.Fits maxDialogIdLen
  | .proxyRequest d => d.Fits

/-- What a command of a client comes to on the stack thread is what the command has, or the client hears of an error. -/
def Session.Delivered (k : Config) (env : CommandEnv) (msg : String) (s : Session) : Prop :=
  ∀ call asked id, (s.processClientMessage k env msg).call = some call → call.verbatim = some asked →
    call.requestId = some id →
    Server.Delivers s.client id (· = asked) s.server (s.processClientMessage k env msg).session.server

section
variable {client : ClientId} {id : String} {s : Server} {hop : Hop} {call : Call} {asked job : Job} {reads : Job → Prop}

theorem posted_perform (hjob : call.posting = some job) :
    (s.perform hop client call).1.posted = s.posted ++ if hop = .sent then [job] else [] := by
  cases call with
  | respondToSipRequest clientMsgId transactionId startLine headers body =>
    obtain rfl := Option.some.inj hjob
    exact posted_postOrDrop
  | sendRequestInsideDialog clientMsgId dialogId startLine headers body transactionId =>
    obtain rfl := Option.some.inj hjob
    exact posted_postOrReport.trans (congrArg (· ++ _) posted_addTransactionFor)
  | sendCancelRequest clientMsgId transactionId startLine headers body =>
    obtain rfl := Option.some.inj hjob
    exact posted_postOrDrop
  | sendRequestOutsideDialog clientMsgId startLine headers body transactionId dialogId routeUrl =>
    obtain rfl := Option.some.inj hjob
    exact posted_postOrDrop.trans (congrArg (· ++ _) posted_addTransactionFor)
  | proxyRequest clientMsgId transactionId d =>
    obtain rfl := Option.some.inj hjob
    exact posted_postOrReport
  | wantsRequests verb => cases hjob
  | noLongerWantsRequests verb => cases hjob

theorem delivers_perform (hjob : call.posting = some job) :
    Server.Delivers client id reads s (s.perform hop client call).1 ↔ (hop = .sent → reads job) :=
  delivers_hop (posted_perform hjob)

/-- A message has the texts of its command exactly when its arrays hold them. -/
theorem posting_verbatim_iff (hasked : call.verbatim = some asked) :
    ∃ job id, call.posting = some job ∧ call.requestId = some id ∧ (job = asked ↔ asked.Fits) := by
  cases call with
  | respondToSipRequest clientMsgId transactionId startLine headers body =>
    obtain rfl := Option.some.inj hasked
    exact ⟨_, _, rfl, rfl, (Job.respondToSipRequest.injEq _ _).to_iff.trans SipMessageData.new_eq_iff⟩
  | sendRequestInsideDialog clientMsgId dialogId startLine headers body transactionId =>
    obtain rfl := Option.some.inj hasked
    exact ⟨_, _, rfl, rfl, (Job.sendRequestInsideDialog.injEq _ _).to_iff.trans SipMessageData.new_eq_iff⟩
  | sendCancelRequest clientMsgId transactionId startLine headers body =>
    obtain rfl := Option.some.inj hasked
    exact ⟨_, _, rfl, rfl, (Job.sendCancelRequest.injEq _ _).to_iff.trans SipMessageData.new_eq_iff⟩
  | sendRequestOutsideDialog clientMsgId startLine headers body transactionId dialogId routeUrl =>
    obtain rfl := Option.some.inj hasked
    exact ⟨_, _, rfl, rfl, (Job.sendRequestOutsideDialog.injEq _ _).to_iff.trans SipMessageData.newRouted_eq_iff⟩
  | wantsRequests verb => cases hasked
  | noLongerWantsRequests verb => cases hasked
  | proxyRequest clientMsgId transactionId d => cases hasked

end

/-- A command for the stack arrives as it was written when it is posted with all texts within their arrays. -/
theorem command_delivered_iff (k : Config) (env : CommandEnv) (msg : String) (s : Session) :
    s.Delivered k env msg ↔ (env.hop = .sent → ∀ call asked, (s.processClientMessage k env msg).call = some call →
      call.verbatim = some asked → asked.Fits) := by
  unfold Session.Delivered
  obtain hquiet | ⟨call, hcall, hserver, -⟩ := process_performs k env msg s
  · rw [hquiet.1]
    exact ⟨fun _ _ _ _ hcall => (Option.some_ne_none _ hcall.symm).elim, fun _ _ _ _ hcall =>
      (Option.some_ne_none _ hcall.symm).elim⟩
  · rw [hcall, hserver]
    constructor
    · rintro h hsent _ asked ⟨⟩ hasked
      obtain ⟨job, id, hjob, hid, hiff⟩ := posting_verbatim_iff hasked
      exact hiff.mp ((delivers_perform hjob).mp (h call asked id rfl hasked hid) hsent)
    · rintro h _ asked id ⟨⟩ hasked -
      obtain ⟨job, -, hjob, -, hiff⟩ := posting_verbatim_iff hasked
      exact (delivers_perform hjob).mpr fun hsent => hiff.mpr (h hsent call asked rfl hasked)

/-- Binary content in a body ends at its first zero. -/
theorem body_cut : ¬ ∀ (k : Config) (env : CommandEnv) (msg : String) (s : Session), s.Delivered k env msg := by
  intro h
  let msg := "1|sip|t||\r\nSIP/2.0 183 Session Progress\r\nContent-Type: application/isup\r\n\r\n\x06\x00\x02"
  let call : Call :=
    .respondToSipRequest "1" "t" "SIP/2.0 183 Session Progress" "Content-Type: application/isup" "\x06\x00\x02"
  have hcall : (freshSession.processClientMessage plainConfig plainEnv msg).call = some call := by decide +kernel
  have hserver : (freshSession.processClientMessage plainConfig plainEnv msg).session.server =
      (freshSession.server.perform .sent freshSession.client call).1 := by
    obtain hquiet | ⟨call', hcall', hserver, -⟩ := process_performs plainConfig plainEnv msg freshSession
    · exact absurd (hquiet.1.symm.trans hcall) (by decide)
    · rw [hserver, Option.some.inj (hcall'.symm.trans hcall)]
      rfl
  have hdelivers := h plainConfig plainEnv msg freshSession call _ "1" hcall rfl rfl
  rw [hserver, delivers_perform rfl] at hdelivers
  exact absurd (hdelivers rfl) (by decide +kernel)

/-! ### Proxy commands -/

/-- The constructor stays in its arrays; what the stack thread reads is what was asked, or the client hears of an error;
    and a client whose command cannot be posted hears of that. -/
structure ProxyData.Delivered (hop : Hop) (client : ClientId) (asked : ProxyData) (s : Server) : Prop where
  inBounds : hop ≠ .createFails → ∀ c ∈ ProxyData.copies asked.destinations, c.inBounds = true
  reads : Server.Delivers client asked.clientMsgId (fun job => ∃ d, job = .proxyRequest d ∧ asked.Reads d) s
    (s.proxyRequest hop client asked.clientMsgId asked.copied asked.transactionId)
  refused : hop ≠ .sent → asked.clientMsgId ≠ "" → client ∈ s.clients → s.apiRequests.lookup asked.clientMsgId = none →
    ∃ text, (s.proxyRequest hop client asked.clientMsgId asked.copied asked.transactionId).outbox =
      s.outbox ++ [⟨client, asked.clientMsgId, "NOK", text⟩]

section
variable {client : ClientId} {id text : String} {s : Server} {hop : Hop} {job : Job}

theorem outbox_routeApiResponse (hid : id ≠ "") (h : s.findClientForApiRequest id = some client) :
    (s.routeApiResponse id "NOK" text).outbox = s.outbox ++ [⟨client, id, "NOK", text⟩] := by
  unfold Server.routeApiResponse
  rw [if_neg hid, h]
  dsimp only
  split <;> rfl

theorem find_addApiRequest (hc : client ∈ s.clients) (hnone : s.apiRequests.lookup id = none) :
    (s.addApiRequest client id).findClientForApiRequest id = some client := by
  refine find_entry ?_ hc
  have hself : (s.apiRequests.insertNew id client).lookup id = some ((s.apiRequests.lookup id).getD client) :=
    AList.lookup_insertNew_self
  rw [hnone] at hself
  exact hself

theorem outbox_postOrReport (hfails : hop ≠ .sent) (hid : id ≠ "") (h : s.findClientForApiRequest id = some client) :
    ∃ text, (s.postOrReport hop id job).outbox = s.outbox ++ [⟨client, id, "NOK", text⟩] := by
  cases hop with
  | sent => exact absurd rfl hfails
  | createFails => exact ⟨_, outbox_routeApiResponse hid h⟩
  | sendFails => exact ⟨_, outbox_routeApiResponse hid h⟩

end

/-- A proxy command is marshalled as it should be when its texts fit, and its destinations fit and are few and not empty. -/
theorem proxyData_delivered_iff (hop : Hop) (client : ClientId) (asked : ProxyData) (s : Server) :
    asked.Delivered hop client s ↔
      (hop ≠ .createFails → asked.destinations.length ≤ ProxyData.maxDestinations) ∧ (hop = .sent → asked.Fits) := by
  have hposting : (Call.proxyRequest asked.clientMsgId asked.transactionId asked.copied).posting =
      some (.proxyRequest asked.copied) := rfl
  have hread : (∃ d, Job.proxyRequest asked.copied = .proxyRequest d ∧ asked.Reads d) ↔ asked.Fits := by
    rw [← ProxyData.reads_copied_iff]
    constructor
    · rintro ⟨d, hd, hreads⟩
      obtain rfl := Job.proxyRequest.inj hd
      exact hreads
    · exact fun hreads => ⟨_, rfl, hreads⟩
  have hdelivers : Server.Delivers client asked.clientMsgId (fun job => ∃ d, job = .proxyRequest d ∧ asked.Reads d) s
      (s.proxyRequest hop client asked.clientMsgId asked.copied asked.transactionId) ↔ (hop = .sent → asked.Fits) := by
    rw [← hread]
    exact delivers_perform hposting
  constructor
  · intro h
    exact ⟨fun hcreated => ProxyData.inBounds_iff.mp (h.inBounds hcreated), hdelivers.mp h.reads⟩
  · rintro ⟨hfew, hfits⟩
    refine ⟨fun hcreated => ProxyData.inBounds_iff.mpr (hfew hcreated), hdelivers.mpr hfits, fun hfails hid hc hnone => ?_⟩
    exact outbox_postOrReport hfails hid (find_addApiRequest hc hnone)

/-- The eleventh destination goes behind the array. -/
theorem eleventh_out_of_bounds :
    ¬ ∀ (hop : Hop) (client : ClientId) (asked : ProxyData) (s : Server), asked.Delivered hop client s := by
  intro h
  let asked : ProxyData := ⟨"1", "t", true, false, false, true, "", "", List.replicate 11 "sip:bob@example.com", ""⟩
  exact absurd ((h .sent 0 asked freshSession.server).inBounds (by decide)) (by decide)

end Drachtio.Client
