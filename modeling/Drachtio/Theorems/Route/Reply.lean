import Drachtio.Route.Reply
import Drachtio.Theorems.Client.Selection
import Drachtio.Theorems.Pending.Kept
import Mathlib.Data.List.TakeWhile

/-! The reply of the routing server leads to one disposition of the request: which replies do, whatever the
    answers, commands and connections that they ask for meet. -/

namespace Drachtio.Route

open Machine
open Client (cString lower ClientId Job SipMessageData)
open Pending (Disposal Event PendingRequest)
open Pending.Disposal (Kept Fresh step empty)

/-! ### The uri of a connection -/

/-- The first line of the uri has a colon that a digit follows. -/
def NamesPort (uri : String) : Prop :=
  ∃ host digit rest, uri.toList = host ++ ':' :: digit :: rest ∧ (∀ c ∈ host, Target.isLineEnd c = false) ∧
    digit.isDigit = true

theorem split_isSome_iff (cs : List Char) :
    (Target.split cs).isSome = true ↔
      ∃ host digit rest, cs = host ++ ':' :: digit :: rest ∧ (∀ c ∈ host, Target.isLineEnd c = false) ∧
      digit.isDigit = true := by
  induction cs with
  | nil =>
    refine iff_of_false nofun ?_
    rintro ⟨host, digit, rest, h, -⟩
    cases host <;> cases h
  | cons c cs ih =>
    rw [Target.split]
    by_cases hend : Target.isLineEnd c = true
    · rw [if_pos hend]
      refine iff_of_false nofun ?_
      rintro ⟨host, digit, rest, h, hline, -⟩
      cases host with
      | nil =>
        obtain ⟨rfl, -⟩ := List.cons.inj h
        exact nomatch hend
      | cons c' host =>
        obtain ⟨rfl, -⟩ := List.cons.inj h
        rw [hline c List.mem_cons_self] at hend
        exact nomatch hend
    · rw [if_neg hend]
      cases hsplit : Target.split cs with
      | some found =>
        refine iff_of_true rfl ?_
        obtain ⟨host, digit, rest, h, hline, hdigit⟩ := ih.mp (by rw [hsplit]; rfl)
        refine ⟨c :: host, digit, rest, congrArg (c :: ·) h, fun c' hc' => ?_, hdigit⟩
        rcases List.mem_cons.mp hc' with rfl | hc'
        · simpa using hend
        · exact hline c' hc'
      | none =>
        have hnone : ¬ ∃ host digit rest, cs = host ++ ':' :: digit :: rest ∧ (∀ c ∈ host, Target.isLineEnd c = false) ∧
            digit.isDigit = true := fun h => by
          have hsome := ih.mpr h
          rw [hsplit] at hsome
          exact nomatch hsome
        -- the match cannot be longer, so the colon is this very character
        dsimp only
        constructor
        · intro h
          split at h
          · rename_i hcolon
            obtain ⟨rfl, hdigit⟩ := hcolon
            cases cs with
            | nil => exact nomatch hdigit
            | cons digit rest => exact ⟨[], digit, rest, rfl, nofun, hdigit⟩
          · exact nomatch h
        · rintro ⟨host, digit, rest, h, hline, hdigit⟩
          cases host with
          | nil =>
            obtain ⟨rfl, rfl⟩ := List.cons.inj h
            rw [if_pos ⟨rfl, hdigit⟩]
            rfl
          | cons c' host =>
            obtain ⟨-, rfl⟩ := List.cons.inj h
            exact absurd ⟨host, digit, rest, rfl, fun d hd => hline d (List.mem_cons_of_mem _ hd), hdigit⟩ hnone

/-- A connection is attempted just when the uri names a port. -/
theorem ofUri_isSome_iff (uri : String) : (Target.ofUri uri).isSome = true ↔ NamesPort uri := by
  rw [NamesPort, ← split_isSome_iff, Target.ofUri]
  cases Target.split uri.toList <;> rfl

/-! ### What is disposed of -/

/-- The event is the disposition of a request: a final response, its way to the targets of a proxy command, or
    its delivery to a client. -/
def Final (t : String) : Event → Prop
  | .respond t' status => t' = t ∧ 200 ≤ status ∧ status < 700
  | .forward t' => t' = t
  | .deliver _ t' => t' = t
  | _ => False

/-- The event is a final response that the request has failed. -/
def Failure (t : String) (e : Event) : Prop := ∃ status, e = .respond t status ∧ 400 ≤ status ∧ status < 700

/-- One disposition is all that happens to the request, a failure response where what was asked for cannot be
    carried out. -/
def Disposes (t : String) (unable : Prop) (s s' : Controllers) : Prop :=
  ∃ e, s'.disposal.log = s.disposal.log ++ [e] ∧ Final t e ∧ (unable → Failure t e)

/-- The number of times that a peer is taken for authenticated. -/
def authentications : List Received → Nat
  | [] => 0
  | m :: received =>
    if m.accepted = false then 0
    else (if Controllers.authenticates m.text = true then 1 else 0) + authentications received

/-- A peer can be talked to. -/
def Peer.Reached (tls : Bool) (peer : Peer) : Prop := peer.endpoints.any id = true ∧ (tls = true → peer.handshakes = true)

/-- What an instruction asks for cannot be carried out: no hops are left or no request can be sent to a
    destination, the uri is invalid or its peer does not come to authenticate itself, no client carries the tag. -/
def Unable (env : Env) (t : String) (p : PendingRequest) (s : Controllers) : Instruction → Prop
  | .reject _ _ => False
  | .redirect _ => False
  | .proxy recordRoute followRedirects simultaneous provisionalTimeout finalTimeout destination =>
    let d := Controllers.proxyData t recordRoute followRedirects simultaneous provisionalTimeout finalTimeout destination
    (env.proxy d).maxForwardsUsed = true ∨ (env.proxy d).started = 0
  | .connect uri =>
    ∀ target ∈ Target.ofUri uri,
      let tls := decide (target.transport = "tls")
      let peer := env.peer target.host target.port tls
      ¬ (peer.Reached tls ∧ 0 < authentications peer.received)
  | .select tag => s.registry.matching (lower p.sip.cseq.methodName.val, some tag) = []

/-- A response of the server for the request can be sent: it is posted and the stack takes it, the request was not
    canceled, and a leg can be set up for it. -/
def CanAnswer (env : Env) (t : String) (p : PendingRequest) (s : Controllers) (reply : Reply) : Prop :=
  env.hop (.respondToSipRequest (reply.message t)) = .sent ∧ env.treply reply.status (reply.message t) = true ∧
    s.disposal.pending.isCanceled p = false ∧ env.leg.tportShutdown = false ∧ env.leg.createFails = false

instance (env : Env) (t : String) (p : PendingRequest) (s : Controllers) (reply : Reply) :
    Decidable (CanAnswer env t p s reply) :=
  inferInstanceAs (Decidable (_ ∧ _ ∧ _ ∧ _ ∧ _))

/-- The replies that lead to one disposition. -/
def Disposable (env : Env) (t : String) (p : PendingRequest) (s : Controllers) : Except String Instruction → Prop
  | .error _ => CanAnswer env t p s (.rejection 500 none)
  | .ok (.reject status reason) =>
    CanAnswer env t p s (.rejection (UInt32.ofInt status) reason) ∧ 200 ≤ (UInt32.ofInt status).toNat ∧
      (UInt32.ofInt status).toNat < 700
  | .ok (.redirect contact) => CanAnswer env t p s (.moved contact)
  | .ok (.proxy recordRoute followRedirects simultaneous provisionalTimeout finalTimeout destination) =>
    env.hop (.proxyRequest
      (Controllers.proxyData t recordRoute followRedirects simultaneous provisionalTimeout finalTimeout destination)) = .sent
  | .ok (.connect uri) =>
    NamesPort uri ∧ ∀ target ∈ Target.ofUri uri,
      let tls := decide (target.transport = "tls")
      let peer := env.peer target.host target.port tls
      if peer.endpoints = [] then CanAnswer env t p s (.rejection 500 none)
      else ¬ (tls = true ∧ env.logsDebug = true ∧ peer.retries = true) ∧
        if peer.endpoints.any id = false then CanAnswer env t p s .temporarilyUnavailable
        else peer.Reached tls ∧ authentications peer.received = 1
  | .ok (.select tag) =>
    s.registry.matching (lower p.sip.cseq.methodName.val, some tag) = [] → CanAnswer env t p s .temporarilyUnavailable

/-- What `generateUuid` returns is carried whole by every message. -/
structure IsUuid (t : String) : Prop where
  length : 0 < t.toList.length ∧ t.toList.length < Client.msgIdLen
  nul : '\x00' ∉ t.toList

/-! ### What the parts log -/

variable {env : Env} {t : String} {p : PendingRequest} {s s' : Controllers} {reply : Reply} {unable : Prop}

theorem cString_of_fits {n : Nat} (hlength : t.toList.length ≤ n) (hnul : '\x00' ∉ t.toList) : cString n t = t := by
  have htake : t.toList.take n = t.toList := List.take_of_length_le hlength
  have hkeep : t.toList.takeWhile (· ≠ '\x00') = t.toList :=
    List.takeWhile_eq_self_iff.mpr fun c hc => decide_eq_true fun h => hnul (h ▸ hc)
  rw [cString, htake, hkeep, String.ofList_toList]

theorem message_transactionId (h : IsUuid t) (reply : Reply) : (reply.message t).transactionId = t :=
  cString_of_fits h.length.2.le h.nul

theorem proxyData_transactionId (h : IsUuid t) (recordRoute followRedirects simultaneous : Bool)
    (provisionalTimeout finalTimeout : String) (destination : List String) :
    (Controllers.proxyData t recordRoute followRedirects simultaneous provisionalTimeout finalTimeout
      destination).transactionId =
      t :=
  cString_of_fits (Nat.le_sub_one_of_lt h.length.2) h.nul

/-- The request is pending. -/
structure Waits (t : String) (p : PendingRequest) (s : Controllers) : Prop where
  kept : s.disposal.Kept
  pending : s.disposal.pending.txnId2Invite.lookup t = some p

theorem Waits.transactionId (h : Waits t p s) : p.transactionId = t := (h.kept.paired.txn t p h.pending).1

theorem setupLeg_iff (h : Waits t p s) (env : Pending.LegEnv) :
    (s.disposal.setupLegForIncomingRequest t env).2 = true ↔
      s.disposal.pending.isCanceled p = false ∧ env.tportShutdown = false ∧ env.createFails = false := by
  have hsame : (s.disposal.pending.findAndRemove t false).1.isCanceled p = s.disposal.pending.isCanceled p := by
    rw [Pending.PendingRequests.isCanceled, Pending.Disposal.findAndRemove_canceled, Pending.PendingRequests.isCanceled]
  unfold Disposal.setupLegForIncomingRequest
  simp only [Pending.Disposal.findAndRemove_found, h.pending, hsame]
  cases s.disposal.pending.isCanceled p <;> cases env.tportShutdown <;> cases env.createFails <;> simp

/-- A response is logged when it can be sent. -/
theorem respond_log (h : Waits t p s) (hid : IsUuid t) (reply : Reply) :
    (s.respondToSipRequest env t reply).disposal.log =
      s.disposal.log ++ if CanAnswer env t p s reply then [.respond t reply.status] else [] := by
  have hout : t ∉ s.disposal.answering := fun ht =>
    (h.kept.answering t ht).1 (AList.mem_of_lookup h.pending)
  rw [Controllers.respondToSipRequest, message_transactionId hid]
  cases hhop : env.hop (.respondToSipRequest (reply.message t)) with
  | sent =>
    have hlog := Pending.Disposal.step_log s.disposal
      (.respond t (if env.treply reply.status (reply.message t) = true then some reply.status else none) env.leg)
    refine hlog.trans (congrArg (s.disposal.log ++ ·) ?_)
    simp only [Pending.Disposal.events, or_iff_right hout, setupLeg_iff h]
    by_cases htreply : env.treply reply.status (reply.message t) = true
    · rw [if_pos htreply]
      have hiff : CanAnswer env t p s reply ↔
          s.disposal.pending.isCanceled p = false ∧ env.leg.tportShutdown = false ∧ env.leg.createFails = false :=
        ⟨fun hcan => hcan.2.2, fun hleg => ⟨hhop, htreply, hleg⟩⟩
      simp only [hiff]
      split <;> rfl
    · have hnot : ¬ CanAnswer env t p s reply := fun hcan => htreply hcan.2.1
      rw [if_neg htreply, if_neg hnot]
      split <;> rfl
  | createFails =>
    have hnot : ¬ CanAnswer env t p s reply := by
      intro hcan
      cases hhop.symm.trans hcan.1
    rw [if_neg hnot, List.append_nil]
  | sendFails =>
    have hnot : ¬ CanAnswer env t p s reply := by
      intro hcan
      cases hhop.symm.trans hcan.1
    rw [if_neg hnot, List.append_nil]

theorem deliver_log (h : Waits t p s) (client : ClientId) :
    (s.routeNewRequestToClient env client t).disposal.log = s.disposal.log ++ [.deliver client t] ∧
      Waits t p (s.routeNewRequestToClient env client t) := by
  have hfind : s.disposal.pending.find t = some p := h.pending
  have hsame : (s.disposal.routeNewRequestToClient client t) = s.disposal.emit [.deliver client p.transactionId] := by
    rw [Disposal.routeNewRequestToClient, hfind]
  rw [Controllers.routeNewRequestToClient, hfind]
  dsimp only
  rw [hsame, h.transactionId]
  exact ⟨rfl, h.kept.emitted (by simp), h.pending⟩

/-- A peer is delivered the request as often as it is taken for authenticated. -/
theorem readHandler_log (h : Waits t p s) (hid : IsUuid t) (client : ClientId) (received : List Received) :
    (s.readHandler env client t received).disposal.log =
      s.disposal.log ++ List.replicate (authentications received) (.deliver client t) := by
  have hne : t ≠ "" := by
    rintro rfl
    exact absurd hid.length.1 (by decide)
  induction received generalizing s with
  | nil => exact (List.append_nil _).symm
  | cons m received ih =>
    rw [Controllers.readHandler, authentications]
    by_cases haccepted : m.accepted = false
    · rw [if_pos haccepted, if_pos haccepted]
      exact (List.append_nil _).symm
    · rw [if_neg haccepted, if_neg haccepted]
      by_cases hauth : Controllers.authenticates m.text = true
      · obtain ⟨hlog, h'⟩ := @deliver_log env _ _ _ h client
        rw [if_pos ⟨hne, hauth⟩, if_pos hauth, ih h', hlog, List.append_assoc, Nat.add_comm 1, List.replicate_succ]
        rfl
      · rw [if_neg fun hboth => hauth hboth.2, if_neg hauth, ih h, Nat.zero_add]

/-! ### One disposition -/

theorem disposes_iff {es : List Event} (hlog : s'.disposal.log = s.disposal.log ++ es) :
    Disposes t unable s s' ↔ ∃ e, es = [e] ∧ Final t e ∧ (unable → Failure t e) := by
  simp only [Disposes, hlog, List.append_cancel_left_eq]

theorem one_iff {e₀ : Event} {P : Event → Prop} : (∃ e, [e₀] = [e] ∧ P e) ↔ P e₀ := by
  constructor
  · rintro ⟨e, he, h⟩
    obtain rfl := (List.cons.inj he).1
    exact h
  · exact fun h => ⟨e₀, rfl, h⟩

theorem none_iff {P : Event → Prop} : (∃ e, [] = [e] ∧ P e) ↔ False := by
  refine iff_of_false ?_ id
  rintro ⟨e, he, -⟩
  cases he

/-- A response is a disposition when it can be sent and is final. -/
theorem respond_disposes (h : Waits t p s) (hid : IsUuid t) :
    Disposes t unable s (s.respondToSipRequest env t reply) ↔
      CanAnswer env t p s reply ∧ (200 ≤ reply.status ∧ reply.status < 700) ∧ (unable → 400 ≤ reply.status) := by
  rw [disposes_iff (respond_log h hid reply)]
  by_cases hcan : CanAnswer env t p s reply
  · rw [if_pos hcan, one_iff]
    have hfailure : Failure t (.respond t reply.status) ↔ 400 ≤ reply.status ∧ reply.status < 700 := by
      constructor
      · rintro ⟨status, he, hstatus⟩
        cases he
        exact hstatus
      · exact fun hstatus => ⟨reply.status, rfl, hstatus⟩
    rw [hfailure, Final, and_iff_right rfl, and_iff_right hcan]
    constructor
    · rintro ⟨hfinal, hunable⟩
      exact ⟨hfinal, fun hu => (hunable hu).1⟩
    · rintro ⟨hfinal, hunable⟩
      exact ⟨hfinal, fun hu => ⟨hunable hu, hfinal.2⟩⟩
  · rw [if_neg hcan, none_iff]
    exact iff_of_false id fun hall => hcan hall.1

/-- Failure responses of the server -/
theorem fail_disposes (h : Waits t p s) (hid : IsUuid t) (hstatus : 400 ≤ reply.status ∧ reply.status < 700) :
    Disposes t unable s (s.respondToSipRequest env t reply) ↔ CanAnswer env t p s reply := by
  rw [respond_disposes h hid]
  exact and_iff_left ⟨⟨by omega, hstatus.2⟩, fun _ => hstatus.1⟩

theorem rejected_disposes (h : Waits t p s) (hid : IsUuid t) :
    Disposes t unable s (s.processRejectInstruction env t 500 none) ↔ CanAnswer env t p s (.rejection 500 none) :=
  fail_disposes h hid ⟨Nat.le_of_ble_eq_true rfl, Nat.le_of_ble_eq_true rfl⟩

theorem failed_disposes (h : Waits t p s) (hid : IsUuid t) :
    Disposes t unable s (s.outboundFailed env t) ↔ CanAnswer env t p s .temporarilyUnavailable :=
  fail_disposes h hid ⟨Nat.le_of_ble_eq_true rfl, Nat.le_of_ble_eq_true rfl⟩

theorem deliver_disposes (h : Waits t p s) (client : ClientId) (hable : ¬ unable) :
    Disposes t unable s (s.routeNewRequestToClient env client t) := by
  rw [disposes_iff (deliver_log h client).1, one_iff]
  exact ⟨rfl, fun hu => absurd hu hable⟩

/-- A proxy command is a disposition when it can be posted. -/
theorem proxy_disposes (h : Waits t p s) {d : Client.ProxyData} (hd : d.transactionId = t)
    (hunable : unable → (env.proxy d).maxForwardsUsed = true ∨ (env.proxy d).started = 0) :
    Disposes t unable s (s.proxyRequest env d) ↔ env.hop (.proxyRequest d) = .sent := by
  rw [Controllers.proxyRequest]
  cases hhop : env.hop (.proxyRequest d) with
  | sent =>
    have hlog := Pending.Disposal.step_log s.disposal (.proxy d.transactionId (env.proxy d))
    refine iff_of_true ((disposes_iff hlog).mpr ?_) rfl
    simp only [Pending.Disposal.events, hd, Pending.Disposal.findAndRemove_found, h.pending, Option.isSome_some, if_true]
    split
    · exact one_iff.mpr ⟨⟨rfl, by omega, by omega⟩, fun _ => ⟨483, rfl, by omega, by omega⟩⟩
    · split
      · exact one_iff.mpr ⟨⟨rfl, by omega, by omega⟩, fun _ => ⟨500, rfl, by omega, by omega⟩⟩
      · rename_i hmax hstarted
        exact one_iff.mpr ⟨rfl, fun hu => absurd (hunable hu) (not_or.mpr ⟨hmax, hstarted⟩)⟩
  | createFails => exact iff_of_false (fun hall => none_iff.mp ((disposes_iff (List.append_nil _).symm).mp hall)) (by simp)
  | sendFails => exact iff_of_false (fun hall => none_iff.mp ((disposes_iff (List.append_nil _).symm).mp hall)) (by simp)

/-- A peer is a disposition when it is reached and taken for authenticated once. -/
theorem peer_disposes (h : Waits t p s) (hid : IsUuid t) {tls : Bool} {peer : Peer}
    (hendpoints : peer.endpoints.any id = true)
    (hthrows : ¬ (tls = true ∧ env.logsDebug = true ∧ peer.retries = true))
    (hunable : unable ↔ ¬ (peer.Reached tls ∧ 0 < authentications peer.received)) :
    (∃ s' ∈ s.asyncConnect env t tls peer, Disposes t unable s s') ↔ peer.Reached tls ∧
      authentications peer.received = 1 := by
  have hne : ¬ peer.endpoints = [] := by
    intro hnil
    rw [hnil] at hendpoints
    exact nomatch hendpoints
  rw [Controllers.asyncConnect, if_neg hne, if_neg hthrows, if_neg (by simp [hendpoints])]
  dsimp only
  by_cases htls : tls = true ∧ peer.handshakes = false
  · rw [if_pos htls]
    have hnot : ¬ peer.Reached tls := fun hreached => by
      have hshake := hreached.2 htls.1
      rw [htls.2] at hshake
      exact nomatch hshake
    refine iff_of_false ?_ fun hboth => hnot hboth.1
    rintro ⟨s', hs', hall⟩
    obtain rfl := Option.some.inj hs'
    exact none_iff.mp ((disposes_iff (List.append_nil _).symm).mp hall)
  · rw [if_neg htls]
    have hreached : peer.Reached tls := ⟨hendpoints, fun h => by simpa [h] using htls⟩
    have hlog := @readHandler_log env _ _ (s.join peer.client) ⟨h.kept, h.pending⟩ hid peer.client peer.received
    have hiff : Disposes t unable s ((s.join peer.client).readHandler env peer.client t peer.received) ↔
        authentications peer.received = 1 := by
      rw [@disposes_iff t s _ unable _ hlog]
      constructor
      · rintro ⟨e, he, -⟩
        simpa using congrArg List.length he
      · intro hone
        rw [hone]
        exact one_iff.mpr ⟨rfl, fun hu => absurd ⟨hreached, by omega⟩ (hunable.mp hu)⟩
    constructor
    · rintro ⟨s', hs', hall⟩
      obtain rfl := Option.some.inj hs'
      exact ⟨hreached, hiff.mp hall⟩
    · rintro ⟨-, hone⟩
      exact ⟨_, rfl, hiff.mpr hone⟩

/-- A connection that cannot be made is answered for, unless the uri is invalid. -/
theorem connect_disposes (h : Waits t p s) (hid : IsUuid t) {uri : String} {body : String} {responseCode : Int}
    (hbody : Instruction.ofBody env.jsonLoads body = .ok (.connect uri)) :
    Disposes t (Unable env t p s (.connect uri)) s (s.httpCallRoutingComplete env t responseCode body) ↔
      Disposable env t p s (.ok (.connect uri)) := by
  rw [Controllers.httpCallRoutingComplete, hbody]
  simp only [Controllers.perform, Controllers.makeOutboundConnection, Disposable, ← ofUri_isSome_iff]
  cases htarget : Target.ofUri uri with
  | none =>
    refine iff_of_false (fun hall => ?_) fun hall => nomatch hall.1
    exact none_iff.mp ((disposes_iff (List.append_nil _).symm).mp hall)
  | some target =>
    have hunable : Unable env t p s (.connect uri) ↔
        ¬ ((env.peer target.host target.port (decide (target.transport = "tls"))).Reached
        (decide (target.transport = "tls")) ∧
          0 < authentications (env.peer target.host target.port (decide (target.transport = "tls"))).received) := by
      rw [Unable, htarget]
      exact ⟨fun hall => hall target rfl, fun hnot target' htarget' => Option.some.inj htarget' ▸ hnot⟩
    have hcond : ∀ P : Target → Prop,
        ((some target).isSome = true ∧ ∀ target' ∈ some target, P target') ↔ P target := fun P =>
      ⟨fun hall => hall.2 target rfl, fun hP => ⟨rfl, fun target' htarget' => Option.some.inj htarget' ▸ hP⟩⟩
    rw [hcond]
    dsimp only
    generalize env.peer target.host target.port (decide (target.transport = "tls")) = peer at hunable ⊢
    by_cases hnil : peer.endpoints = []
    · rw [if_pos hnil, Controllers.asyncConnect, if_pos hnil]
      exact rejected_disposes h hid
    · rw [if_neg hnil]
      generalize htls : decide (target.transport = "tls") = tls at hunable ⊢
      by_cases hthrows : tls = true ∧ env.logsDebug = true ∧ peer.retries = true
      · rw [Controllers.asyncConnect, if_neg hnil, if_pos hthrows]
        refine iff_of_false (fun hall => ?_) fun hall => hall.1 hthrows
        exact none_iff.mp ((disposes_iff (List.append_nil _).symm).mp hall)
      · rw [and_iff_right hthrows]
        by_cases hany : peer.endpoints.any id = false
        · rw [if_pos hany, Controllers.asyncConnect, if_neg hnil, if_neg hthrows, if_pos hany]
          exact failed_disposes h hid
        · rw [if_neg hany, ← @peer_disposes env _ _ _ _ h hid _ peer (by simpa using hany) hthrows hunable]
          cases hconnect : s.asyncConnect env t tls peer with
          | none =>
            exfalso
            rw [Controllers.asyncConnect, if_neg hnil, if_neg hthrows, if_neg hany] at hconnect
            dsimp only at hconnect
            split at hconnect <;> cases hconnect
          | some s' => simp

/-- A request is delivered to a client with the tag; when there is none the server answers. -/
theorem select_disposes (h : Waits t p s) (hid : IsUuid t) (tag : String) :
    Disposes t (Unable env t p s (.select tag)) s (s.selectClientForTag env t tag) ↔
    Disposable env t p s (.ok (.select tag)) := by
  have hfind : s.disposal.pending.find t = some p := h.pending
  rw [Controllers.selectClientForTag, hfind]
  dsimp only
  rw [Disposable, Unable, ← (Client.Registry.select_spec s.registry p.sip.cseq.methodName.val (some tag)).1]
  generalize s.registry.selectClientForRequestOutsideDialog p.sip.cseq.methodName.val (some tag) = selection
  obtain ⟨registry, client⟩ := selection
  have h' : Waits t p { s with registry := registry } := ⟨h.kept, h.pending⟩
  cases client with
  | none =>
    have hiff : Disposes t ((none : Option ClientId) = none) s ({ s with registry := registry }.outboundFailed env t) ↔
        CanAnswer env t p s .temporarilyUnavailable := failed_disposes h' hid
    rw [hiff]
    exact ⟨fun hcan _ => hcan, fun hcan => hcan rfl⟩
  | some client => exact iff_of_true (deliver_disposes h' client nofun) nofun

/-- An INVITE that is routed over HTTP, and an environment in which all goes well. -/
def routedArrival : Pending.Arrival :=
  { Pending.PendingRequests.inviteArrival (.ofString "a") 0 "t0" 4 with routed := true }

def noClients : Client.Registry := ⟨⟨∅, [], ∅, ∅, ∅, ∅, [], []⟩, fun _ => ∅⟩

def replied (data : List (String × Json)) : Env where
  jsonLoads _ := .ok (.object [("action", .string "route"), ("data", .object data)])
  hop _ := .sent
  treply _ _ := true
  leg := ⟨false, false⟩
  proxy _ := ⟨false, 1⟩
  peer _ _ _ := ⟨[false, true], true, 3, [⟨"1|authenticate|secret", true⟩, ⟨"2|route|invite", true⟩]⟩
  logsDebug := false

end Drachtio.Route
