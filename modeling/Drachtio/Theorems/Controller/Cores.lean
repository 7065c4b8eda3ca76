import Drachtio.Controller.Dispatch
import Drachtio.Theorems.Pending.Tables
import Drachtio.Theorems.Proxy.Keys
import Drachtio.Theorems.Proxy.Registry

/-! The server as a whole: no transaction is both pending and proxied, every proxy core goes through a run of its own machine
    whatever else happens, and when a core can no longer be found by its messages although it goes on. -/

namespace Drachtio.Controller

open Pending (isNewRequest)
open Proxy (Method makeUniqueSipTransactionIdentifier)

/-! ### Names of methods -/

theorem methodName_inj {m m' : Method} (h : Sip.methodName m = Sip.methodName m') : m = m' := by
  cases m <;> cases m' <;> first | rfl | exact absurd h (by decide)

theorem methodName_of_new {m : Method} (h : isNewRequest m = true) : ∃ name, Sip.methodName m = some name ∧ m ≠ .cancel := by
  cases m <;> first | exact ⟨_, rfl, by decide⟩ | exact nomatch h

/-- The name in the CSeq tells the method, also where the stack does not know it. -/
theorem method_eq {m m' : Method} {name : String} (hname : Sip.methodName m = some name)
    (hnamed : ∀ n ∈ Sip.methodName m', name = n) (hunnamed : m' = .unknown → ∀ m, Sip.methodName m ≠ some name) : m' = m := by
  cases h' : Sip.methodName m' with
  | none => exact absurd hname (hunnamed (methodName_inj (h'.trans rfl : _ = Sip.methodName .unknown)) m)
  | some n =>
    obtain rfl := hnamed n h'
    exact methodName_inj (h'.trans hname.symm)

/-- The two identifiers of a request are the same text. -/
theorem identifier_eq {sip : Sip.Message} {m : Method} (h : sip.request = some m) :
    makeUniqueSipTransactionIdentifier sip = Sip.makeUniqueSipTransactionIdentifier sip := by
  unfold makeUniqueSipTransactionIdentifier Sip.makeUniqueSipTransactionIdentifier Proxy.identifyingBranch
  rw [h]

end Drachtio.Controller

namespace Drachtio.Proxy
open ProxyCore

theorem Micro.registered {s₀ s t : ProxyCore} {i : Input} (h : Micro s₀ i s t) (ht : t.registered = true) :
    s.registered = true := by
  cases h with
  | forward r _ =>
    unfold ProxyCore.forwardResponse at ht
    dsimp only at ht
    split at ht <;> exact ht
  | remove b _ => exact (Bool.and_eq_true_iff.mp ht).1
  | start =>
    unfold startRequests at ht
    dsimp only at ht
    split at ht <;> exact ht
  | add targets target =>
    unfold addClientTransactions at ht
    split at ht <;> exact ht
  | _ => exact ht

theorem Chain.registered {s₀ s t : ProxyCore} {i : Input} (h : Chain s₀ i s t) (ht : t.registered = true) :
    s.registered = true := by
  induction h with
  | refl => exact ht
  | tail _ hm ih => exact ih (hm.registered ht)

end Drachtio.Proxy

namespace Drachtio.Controller.Server

open Machine (Meets run)
open Pending (PendingRequest PendingRequests isNewRequest)
open Proxy (Method ProxyCore makeUniqueSipTransactionIdentifier transactionOf)

variable {c : Setup} {s t : Server} {k : Nat} {f : ProxyCore → ProxyCore}

/-! ### The invariant -/

/-- The core has gone through a run of its own machine, in which no INFO was forwarded. -/
def History (core : ProxyCore) : Prop :=
  ∃ k env req destinations inputs, (∀ i ∈ inputs, ∀ r, i.event ≠ .info r) ∧
    core = run ProxyCore.step (ProxyCore.doProxy k env req destinations) inputs

/-- What holds of a core and the request that it was made for -/
structure Owner (o : Core) : Prop where
  request : ∃ m, o.sip.request = some m ∧ isNewRequest m = true ∧ o.core.request.method = m
  history : History o.core

/-- A transaction has at most one owner, and an entry for a core leads to it. -/
structure Owned (s : Server) : Prop where
  paired : s.pending.Paired
  kind : ∀ id p, s.pending.callId2Invite.lookup id = some p → ∃ m, p.sip.request = some m ∧ isNewRequest m = true
  apart : ∀ id ∈ s.pending.callId2Invite, id ∉ s.proxies
  found : ∀ id k, s.proxies.lookup id = some k →
    ∃ o, s.cores[k]? = some o ∧ makeUniqueSipTransactionIdentifier o.sip = id ∧ o.core.registered = true
  owner : ∀ o ∈ s.cores, Owner o

theorem owned_empty : Owned empty where
  paired := Pending.PendingRequests.paired_empty
  kind id p hid := by
    rw [empty, Pending.PendingRequests.empty, AList.lookup_empty] at hid
    exact nomatch hid
  apart id hid := absurd hid (AList.notMem_empty id)
  found id k hid := by
    rw [empty, AList.lookup_empty] at hid
    exact nomatch hid
  owner o ho := absurd ho List.not_mem_nil

/-- The call is a step of the core's own machine. -/
def Steps (f : ProxyCore → ProxyCore) (o : Core) : Prop := ∃ i, (∀ r, i.event ≠ .info r) ∧ f o.core = o.core.step i

theorem call_eq {o : Core} (hk : s.cores[k]? = some o) : s.call k f =
    { s with
      cores := s.cores.set k { o with core := f o.core }
      proxies := if removes f o.core = true then s.proxies.removeProxy o.sip else s.proxies } := by
  unfold call
  rw [hk]

/-- A core that was not taken out yet is taken out exactly when it says so itself. -/
theorem removes_of_registered {core : ProxyCore} (h : core.registered = true) : removes f core = !(f core).registered := by
  obtain ⟨_, _, _, _, _, _, _, _, registered, _⟩ := core
  cases h
  rfl

theorem Owner.step {o : Core} (h : Owner o) (hsteps : Steps f o) : Owner { o with core := f o.core } := by
  obtain ⟨i, hinfo, heq⟩ := hsteps
  obtain ⟨m, hm, hnew, hmethod⟩ := h.request
  obtain ⟨k, env, req, destinations, inputs, hinputs, hrun⟩ := h.history
  refine ⟨⟨m, hm, hnew, ?_⟩, k, env, req, destinations, inputs ++ [i], ?_, ?_⟩
  · show (f o.core).request.method = m
    rw [heq, Proxy.step_request]
    exact hmethod
  · exact List.forall_mem_append.mpr ⟨hinputs, List.forall_mem_singleton.mpr hinfo⟩
  · show f o.core = _
    rw [heq, Machine.run_append, ← hrun]
    rfl

theorem Owned.call (h : Owned s) (hsteps : ∀ o, s.cores[k]? = some o → Steps f o) : Owned (s.call k f) := by
  cases hk : s.cores[k]? with
  | none =>
    unfold Server.call
    rw [hk]
    exact h
  | some o =>
    rw [call_eq hk]
    have hlen : k < s.cores.length := (List.getElem?_eq_some_iff.mp hk).1
    have hproxies : ∀ id k',
        (if removes f o.core = true then s.proxies.removeProxy o.sip else s.proxies).lookup id = some k' →
        s.proxies.lookup id = some k' ∧ (removes f o.core = true → id ≠ makeUniqueSipTransactionIdentifier o.sip) := by
      intro id k' hid
      split at hid
      · obtain ⟨hne, hid⟩ := AList.lookup_erase_eq_some.mp hid
        exact ⟨hid, fun _ => hne⟩
      · rename_i hnot
        exact ⟨hid, fun hr => absurd hr hnot⟩
    refine ⟨h.paired, h.kind, fun id hid hmem => ?_, fun id k' hid => ?_, fun o' ho' => ?_⟩
    · obtain ⟨k', hk'⟩ := Option.isSome_iff_exists.mp (AList.lookup_isSome.mpr hmem)
      exact h.apart id hid (AList.mem_of_lookup (hproxies id k' hk').1)
    · obtain ⟨hold, hne⟩ := hproxies id k' hid
      obtain ⟨o', ho', hid', hreg⟩ := h.found id k' hold
      by_cases hkk : k = k'
      · subst hkk
        obtain rfl := Option.some.inj (hk.symm.trans ho')
        refine ⟨_, List.getElem?_set_self hlen, hid', ?_⟩
        have hremoves := removes_of_registered (f := f) hreg
        by_contra hgone
        rw [Bool.eq_false_of_not_eq_true hgone] at hremoves
        exact hne hremoves hid'.symm
      · exact ⟨o', (List.getElem?_set_ne hkk).trans ho', hid', hreg⟩
    · rcases List.mem_or_eq_of_mem_set ho' with ho' | rfl
      · exact h.owner o' ho'
      · exact (h.owner o (List.mem_of_getElem? hk)).step (hsteps o hk)

/-! ### Calls -/

/-- A core that is in the table, with the identifier it is found by -/
theorem Owned.getProxy {sip : Sip.Message} (h : Owned s) (hk : s.proxies.getProxy sip = some k) :
    ∃ o, s.cores[k]? = some o ∧ makeUniqueSipTransactionIdentifier o.sip = makeUniqueSipTransactionIdentifier sip ∧
      o.core.registered = true ∧ Owner o := by
  obtain ⟨o, ho, hid, hreg⟩ := h.found _ k hk
  exact ⟨o, ho, hid, hreg, h.owner o (List.mem_of_getElem? ho)⟩

theorem identifier_owner {o : Core} (h : Owner o) : makeUniqueSipTransactionIdentifier o.sip = (transactionOf o.sip).id := by
  obtain ⟨m, hm, hnew, -⟩ := h.request
  obtain ⟨-, -, hne⟩ := methodName_of_new hnew
  exact Proxy.identifier_request hm hne

/-- The name of the method in the request of a core -/
theorem Owner.methodName {o : Core} (h : Owner o) :
    Sip.methodName o.core.request.method = some o.sip.cseq.methodName.val := by
  obtain ⟨m, hm, hnew, rfl⟩ := h.request
  obtain ⟨name, hname, -⟩ := methodName_of_new hnew
  rw [hname, o.sip.sane _ hm name hname]

/-- A response that finds a core is a step of it. -/
theorem steps_response {o : Core} {env : Proxy.Env} {r : NetResponse} (h : Owner o) (hreg : o.core.registered = true)
    (hid : makeUniqueSipTransactionIdentifier o.sip = makeUniqueSipTransactionIdentifier r.sip)
    (hprack : r.response.method ≠ .prack) : Steps (takeResponse env r.response) o := by
  have hname : o.sip.cseq.methodName.val = r.sip.cseq.methodName.val := by
    have hcancel : r.sip.request ≠ some .cancel := by rw [r.isResponse]; exact nofun
    have hr : makeUniqueSipTransactionIdentifier r.sip = Proxy.Transaction.id
      ⟨r.sip.callId, r.sip.cseq.methodName, r.sip.cseq.seq,
        Proxy.identifyingBranch r.sip⟩ := by
      unfold makeUniqueSipTransactionIdentifier Proxy.Transaction.id
      rw [Sip.identifiedMethod_of_ne hcancel]
    rw [identifier_owner h, hr] at hid
    exact congrArg (·.method.val) (Proxy.Transaction.id_inj hid)
  have hmethod : r.response.method = o.core.request.method :=
    method_eq h.methodName (fun n hn => hname.trans (r.named n hn)) (hname ▸ r.unnamed)
  have hemit : (o.core.emit [.received r.response]).registered = true := hreg
  refine ⟨⟨env, .response r.response⟩, nofun, ?_⟩
  unfold takeResponse ProxyCore.step ProxyCore.receive
  dsimp only
  rw [if_pos hmethod, if_neg hprack, if_pos hemit]

/-- A request that finds a core has the method of the core's request, or it is the CANCEL of that INVITE. -/
theorem method_of_found {o : Core} {req : NetRequest} (h : Owner o)
    (hid : makeUniqueSipTransactionIdentifier o.sip = makeUniqueSipTransactionIdentifier req.sip) :
    (req.method ≠ .cancel ∧ req.method = o.core.request.method) ∨
      (req.method = .cancel ∧ o.core.request.method = .invite) := by
  rw [identifier_owner h] at hid
  by_cases hcancel : req.method = .cancel
  · refine Or.inr ⟨hcancel, ?_⟩
    have hr : makeUniqueSipTransactionIdentifier req.sip = Proxy.Transaction.id ⟨req.sip.callId, .ofString "INVITE",
        req.sip.cseq.seq, req.sip.branch⟩ := by
      unfold makeUniqueSipTransactionIdentifier Proxy.Transaction.id Proxy.identifyingBranch
      rw [Sip.identifiedMethod_cancel (hcancel ▸ req.isRequest), req.isRequest]
      rfl
    have hname : o.sip.cseq.methodName.val = "INVITE" := congrArg (·.method.val) (Proxy.Transaction.id_inj (hid.trans hr))
    exact methodName_inj (h.methodName.trans (congrArg some hname))
  · refine Or.inl ⟨hcancel, ?_⟩
    have hname : o.sip.cseq.methodName.val = req.sip.cseq.methodName.val := by
      rw [Proxy.identifier_request req.isRequest hcancel] at hid
      exact congrArg (·.method.val) (Proxy.Transaction.id_inj hid)
    exact method_eq h.methodName (fun n hn => hname.trans (req.sip.sane _ req.isRequest n hn)) (hname ▸ req.unnamed)

theorem steps_cancel {o : Core} {env : Proxy.Env} (hreg : o.core.registered = true)
    (hmethod : o.core.request.method = .invite) :
    Steps (·.cancel env) o :=
  ⟨⟨env, .cancel⟩, nofun, (if_pos ⟨hreg, hmethod⟩ : o.core.step ⟨env, .cancel⟩ = _).symm⟩

theorem steps_prack {o : Core} {env : Proxy.Env} {rack : UInt32} (hreg : o.core.registered = true) :
    Steps (·.forwardPrack env rack) o :=
  ⟨⟨env, .prack rack⟩, nofun, (if_pos hreg : o.core.step ⟨env, .prack rack⟩ = _).symm⟩

/-! ### What a step does -/

/-- A new request gets a uuid that no other one has, and its timeout a handle that is not in use. -/
def Fresh (s : Server) : Event → Prop
  | .request env _ => env.uuid ∉ s.pending.txnId2Invite ∧ env.handle ∉ s.pending.timeouts
  | _ => True

instance : ∀ s e, Decidable (Fresh s e)
  | s, .request env _ => inferInstanceAs (Decidable (env.uuid ∉ s.pending.txnId2Invite ∧ env.handle ∉ s.pending.timeouts))
  | _, .response _ _ => isTrue trivial
  | _, .doProxy _ _ _ _ _ => isTrue trivial
  | _, .setupLegForIncomingRequest _ => isTrue trivial
  | _, .timeout _ => isTrue trivial
  | _, .timer _ _ _ _ => isTrue trivial

/-- A request that may become a pending one -/
structure Newcomer (s : Server) (p : PendingRequest) : Prop where
  kind : ∃ m, p.sip.request = some m ∧ isNewRequest m = true
  pending : p.identifier ∉ s.pending.callId2Invite
  proxied : p.identifier ∉ s.proxies
  uuid : p.transactionId ∉ s.pending.txnId2Invite
  handle : p.handle ∉ s.pending.timeouts

/-- What a message does to the tables, other than that of the aliases -/
inductive Move (s : Server) : Server → Prop
  | calm : Move s s
  | add (p : PendingRequest) (h : Newcomer s p) : Move s { s with pending := s.pending.add p }
  | cancel (p : PendingRequest) : Move s { s with pending := s.pending.cancel p }
  | call {k : Nat} {f : ProxyCore → ProxyCore} {o : Core} (hk : s.cores[k]? = some o) (hreg : o.core.registered = true)
    (hsteps : Steps f o) : Move s (s.call k f)

theorem move_processNewRequest {env : DispatchEnv} {req : NetRequest}
    (h : Newcomer s ⟨env.address, req.sip, env.uuid, env.handle⟩) : Move s (s.processNewRequest c env req).1 := by
  unfold processNewRequest
  split
  · exact .calm
  · split
    · exact .calm
    · exact .add _ h
    · exact .add _ h

theorem move_processRequest {env : DispatchEnv} {req : NetRequest} (hnew : isNewRequest req.method = true)
    (hfresh : Fresh s (.request env req)) : Move s (s.processRequest c env req).1 := by
  unfold processRequest
  by_cases hretrans : s.pending.isRetransmission req.sip = true ∨ s.proxies.isProxyingRequest req.sip = true
  · rw [if_pos hretrans]
    exact .calm
  · rw [if_neg hretrans]
    obtain ⟨hpending, hproxied⟩ := not_or.mp hretrans
    have hnewcomer : Newcomer s ⟨env.address, req.sip, env.uuid, env.handle⟩ := by
      refine ⟨⟨req.method, req.isRequest, hnew⟩, fun hmem => hpending (decide_eq_true hmem), fun hmem => hproxied ?_,
        hfresh.1,
        hfresh.2⟩
      have hid : makeUniqueSipTransactionIdentifier req.sip ∈ s.proxies := identifier_eq req.isRequest ▸ hmem
      exact decide_eq_true hid
    split
    · split
      · exact .calm
      · split
        · exact .calm
        · exact move_processNewRequest hnewcomer
    · split
      · exact .calm
      · exact move_processNewRequest hnewcomer

theorem move_processMethod {env : DispatchEnv} {req : NetRequest} (hfresh : Fresh s (.request env req)) :
    Move s (s.processMethod c env req).1 := by
  unfold processMethod
  split
  all_goals first | exact .calm | exact move_processRequest (by rename_i h; rw [h]; rfl) hfresh | skip
  unfold processCancel
  split
  · exact .cancel _
  · exact .calm

/-- A request that finds a core is a retransmission of the core's, or the CANCEL of its INVITE. -/
theorem processRequestWithoutRouteHeader_eq {env : DispatchEnv} {req : NetRequest} (h : Owned s)
    (hk : s.proxies.getProxy req.sip = some k) :
    s.processRequestWithoutRouteHeader env req =
      if req.method = .cancel then (s.call k (·.cancel env.core), []) else (s, [.discard]) := by
  obtain ⟨o, ho, hid, -, howner⟩ := h.getProxy hk
  unfold processRequestWithoutRouteHeader
  rw [hk]
  dsimp only
  rcases method_of_found howner hid with ⟨hcancel, hsame⟩ | ⟨hcancel, hinvite⟩
  · rw [if_pos (⟨o, ho, hsame⟩ : ∃ o' ∈ s.cores[k]?, req.method = o'.core.request.method), ite_self]
    exact (if_neg hcancel).symm
  · have hack : req.method ≠ .ack := by rw [hcancel]; decide
    have hnot : ¬ ∃ o' ∈ s.cores[k]?, req.method = o'.core.request.method := by
      rintro ⟨o', ho', hsame⟩
      obtain rfl := Option.some.inj (ho.symm.trans ho')
      rw [hcancel, hinvite] at hsame
      exact nomatch hsame
    rw [if_neg hack, if_neg hnot, if_pos hcancel]
    exact (if_pos hcancel).symm

theorem move_processRequestWithoutRouteHeader {env : DispatchEnv} {req : NetRequest} (h : Owned s) :
    Move s (s.processRequestWithoutRouteHeader env req).1 := by
  cases hk : s.proxies.getProxy req.sip with
  | none =>
    unfold processRequestWithoutRouteHeader
    rw [hk]
    exact .calm
  | some k =>
    obtain ⟨o, ho, hid, hreg, howner⟩ := h.getProxy hk
    rw [processRequestWithoutRouteHeader_eq h hk]
    split
    · rename_i hcancel
      rcases method_of_found howner hid with ⟨hne, -⟩ | ⟨-, hinvite⟩
      · exact absurd hcancel hne
      · exact .call ho hreg (steps_cancel hreg hinvite)
    · exact .calm

theorem move_processRequestWithRouteHeader {env : DispatchEnv} {req : NetRequest} (h : Owned s) :
    Move s (s.processRequestWithRouteHeader env req).1 := by
  unfold processRequestWithRouteHeader
  split
  · split
    · exact .calm
    · rename_i k hk
      obtain ⟨⟨id, k'⟩, hfind, rfl⟩ := Option.map_eq_some_iff.mp hk
      obtain ⟨o, ho, -, hreg⟩ := h.found id k' (AList.mem_lookup_iff.mpr (List.mem_of_find?_eq_some hfind))
      exact .call ho hreg (steps_prack hreg)
  · split
    · exact .calm
    · split <;> exact .calm

theorem move_processScreened {env : DispatchEnv} {req : NetRequest} (h : Owned s) (hfresh : Fresh s (.request env req)) :
    Move s (s.processScreened c env req).1 := by
  unfold processScreened
  split
  · exact .calm
  · exact move_processRequestWithRouteHeader h
  · split
    · exact move_processRequestWithoutRouteHeader h
    · split
      · exact move_processMethod hfresh
      · exact .calm

theorem move_response {env : DispatchEnv} {r : NetResponse} (h : Owned s) : Move s (s.response env r).1 := by
  unfold response
  split
  · exact .calm
  · split
    · exact .calm
    · rename_i hprack
      split
      · rename_i k hk
        obtain ⟨o, ho, hid, hreg, howner⟩ := h.getProxy hk
        exact .call ho hreg (steps_response howner hreg hid hprack)
      · exact .calm

/-! ### The invariant is kept -/

theorem Owned.hear (h : Owned s) (aliases : ContactAliases) : Owned { s with aliases := aliases } :=
  ⟨h.paired, h.kind, h.apart, h.found, h.owner⟩

theorem Owned.add {p : PendingRequest} (h : Owned s) (hp : Newcomer s p) : Owned { s with pending := s.pending.add p } := by
  have htable : (s.pending.add p).callId2Invite = s.pending.callId2Invite.insert p.identifier p :=
    AList.insertNew_of_notMem hp.pending
  refine ⟨h.paired.add hp.pending hp.uuid hp.handle, fun id q hq => ?_, fun id hid => ?_, h.found, h.owner⟩
  · rw [htable] at hq
    rcases AList.lookup_insert_eq_some.mp hq with ⟨-, rfl⟩ | ⟨-, hq⟩
    · exact hp.kind
    · exact h.kind id q hq
  · rw [htable] at hid
    rcases (AList.mem_insert _).mp hid with rfl | hid
    · exact hp.proxied
    · exact h.apart id hid

theorem Owned.move (h : Owned s) (hmove : Move s t) : Owned t := by
  cases hmove with
  | calm => exact h
  | add p hp => exact h.add hp
  | cancel p => exact ⟨⟨h.paired.txn, h.paired.callId, h.paired.timeout, h.paired.faults⟩, h.kind, h.apart, h.found, h.owner⟩
  | call hk _ hsteps => exact h.call fun o ho => Option.some.inj (hk.symm.trans ho) ▸ hsteps

/-- A pending request as it is taken out of the tables -/
def withdrawn (t : String) (p : PendingRequest) (c : PendingRequests) : PendingRequests :=
  { c with
    txnId2Invite := c.txnId2Invite.erase t
    callId2Invite := c.callId2Invite.erase p.identifier
    timeouts := c.timeouts.erase p.handle }

theorem Owned.withdraw {t : String} {p : PendingRequest} (h : Owned s) (hp : s.pending.txnId2Invite.lookup t = some p) :
    Owned { s with pending := withdrawn t p s.pending } := by
  refine ⟨h.paired.erase hp, fun id q hq => ?_, fun id hid => ?_, h.found, h.owner⟩
  · exact h.kind id q (AList.lookup_erase_eq_some.mp hq).2
  · exact h.apart id (AList.mem_erase.mp hid).2

theorem findAndRemove_cases (h : Owned s) (t : String) : s.pending.findAndRemove t false = (s.pending, none) ∨
    ∃ p, s.pending.txnId2Invite.lookup t = some p ∧ s.pending.findAndRemove t false = (withdrawn t p s.pending, some p) := by
  cases hp : s.pending.txnId2Invite.lookup t with
  | none =>
    left
    unfold PendingRequests.findAndRemove
    rw [hp]
  | some p => exact Or.inr ⟨p, rfl, h.paired.findAndRemove_eq hp⟩

theorem fire_cases (h : Owned s) (handle : Nat) : s.pending.fire handle = s.pending ∨
    ∃ t p, s.pending.txnId2Invite.lookup t = some p ∧ s.pending.fire handle = withdrawn t p s.pending := by
  cases ht : s.pending.timeouts.lookup handle with
  | none =>
    left
    unfold PendingRequests.fire
    rw [ht]
  | some t =>
    obtain ⟨p, hp, -, heq⟩ := h.paired.fire_eq ht
    exact Or.inr ⟨t, p, hp, heq⟩

/-- The core that a proxy command makes is not in the way of another one: it is put into the table if it starts. -/
theorem doProxy_cases (h : Owned s) (transactionId : String) (k : Proxy.Settings) (env : Proxy.Env)
    (maxForwards : Option UInt64)
    (destinations : List String) : s.doProxy transactionId k env maxForwards destinations = s ∨
    ∃ p method, s.pending.txnId2Invite.lookup transactionId = some p ∧ p.sip.request = some method ∧
      isNewRequest method = true ∧
      makeUniqueSipTransactionIdentifier p.sip ∉ s.proxies ∧
      s.doProxy transactionId k env maxForwards destinations =
        { s with
          pending := withdrawn transactionId p s.pending
          cores := s.cores ++ [⟨p.sip, .doProxy k env ⟨method, maxForwards⟩ destinations⟩]
          proxies := if (ProxyCore.doProxy k env ⟨method, maxForwards⟩ destinations).registered = true then
              s.proxies.insert (makeUniqueSipTransactionIdentifier p.sip) s.cores.length
            else s.proxies } := by
  rcases findAndRemove_cases h transactionId with hnone | ⟨p, hp, hsome⟩
  · left
    unfold doProxy
    rw [hnone]
  · right
    obtain ⟨-, hcall, -⟩ := h.paired.txn transactionId p hp
    obtain ⟨method, hmethod, hnew⟩ := h.kind _ p hcall
    have hid : makeUniqueSipTransactionIdentifier p.sip = p.identifier := identifier_eq hmethod
    have hnot : makeUniqueSipTransactionIdentifier p.sip ∉ s.proxies := hid ▸ h.apart _ (AList.mem_of_lookup hcall)
    refine ⟨p, method, hp, hmethod, hnew, hnot, ?_⟩
    have hadd : s.proxies.addProxy p.sip s.cores.length =
        s.proxies.insert (makeUniqueSipTransactionIdentifier p.sip) s.cores.length := AList.insertNew_of_notMem hnot
    have hremove : (s.proxies.addProxy p.sip s.cores.length).removeProxy p.sip = s.proxies := by
      rw [hadd]
      exact AList.erase_insert_of_notMem hnot
    unfold doProxy
    rw [hsome]
    dsimp only
    rw [hmethod]
    dsimp only
    rw [hremove, hadd]

theorem Owned.doProxy (h : Owned s) (transactionId : String) (k : Proxy.Settings) (env : Proxy.Env)
    (maxForwards : Option UInt64) (destinations : List String) :
    Owned (s.doProxy transactionId k env maxForwards destinations) := by
  rcases doProxy_cases h transactionId k env maxForwards destinations with heq | ⟨p, method, hp, hmethod, hnew, hnot, heq⟩
  · rw [heq]
    exact h
  · rw [heq]
    have hw := h.withdraw hp
    obtain ⟨-, hcall, -⟩ := h.paired.txn transactionId p hp
    have hid : makeUniqueSipTransactionIdentifier p.sip = p.identifier := identifier_eq hmethod
    refine ⟨hw.paired, hw.kind, fun id hmem hproxied => ?_, fun id k' hk' => ?_, fun o ho => ?_⟩
    · dsimp only at hproxied
      split at hproxied
      · rcases (AList.mem_insert _).mp hproxied with rfl | hproxied
        · exact (AList.mem_erase.mp hmem).1 hid
        · exact hw.apart id hmem hproxied
      · exact hw.apart id hmem hproxied
    · have hold : ∀ {j : Nat} {o : Core}, s.cores[j]? = some o → (s.cores ++ [⟨p.sip, .doProxy k env ⟨method, maxForwards⟩
          destinations⟩])[j]? = some o := fun hj => List.getElem?_append_left (List.getElem?_eq_some_iff.mp hj).1 ▸ hj
      dsimp only at hk'
      split at hk'
      · rename_i hreg
        rcases AList.lookup_insert_eq_some.mp hk' with ⟨rfl, rfl⟩ | ⟨-, hk'⟩
        · exact ⟨_, List.getElem?_concat_length, rfl, hreg⟩
        · obtain ⟨o, ho, hid, hreg⟩ := h.found id k' hk'
          exact ⟨o, hold ho, hid, hreg⟩
      · obtain ⟨o, ho, hid, hreg⟩ := h.found id k' hk'
        exact ⟨o, hold ho, hid, hreg⟩
    · rcases List.mem_append.mp ho with ho | ho
      · exact h.owner o ho
      · obtain rfl := List.mem_singleton.mp ho
        have hrequest : (ProxyCore.doProxy k env ⟨method, maxForwards⟩ destinations).request.method = method := by
          rw [Proxy.doProxy_request]
        exact ⟨⟨method, hmethod, hnew, hrequest⟩, k, env, ⟨method, maxForwards⟩, destinations, [],
          fun _ hi => absurd hi List.not_mem_nil, Machine.run_nil.symm⟩

theorem steps_timer (env : Proxy.Env) (t : Proxy.TimerName) (client : Nat) (o : Core) :
    Steps (fun x => x.step ⟨env, .timer t client⟩) o := ⟨⟨env, .timer t client⟩, nofun, rfl⟩

theorem Owned.step {e : Event} (h : Owned s) (hfresh : Fresh s e) : Owned (s.step c e).1 := by
  cases e with
  | request env req =>
    show Owned (s.request c env req).1
    unfold request
    split
    · exact (h.hear _).move (move_processScreened (h.hear _) hfresh)
    · exact h
  | response env r => exact h.move (move_response h)
  | doProxy transactionId k env maxForwards destinations => exact h.doProxy transactionId k env maxForwards destinations
  | setupLegForIncomingRequest transactionId =>
    show Owned { s with pending := (s.pending.findAndRemove transactionId false).1 }
    rcases findAndRemove_cases h transactionId with heq | ⟨p, hp, heq⟩
    · rw [heq]
      exact h
    · rw [heq]
      exact h.withdraw hp
  | timeout handle =>
    show Owned { s with pending := s.pending.fire handle }
    rcases fire_cases h handle with heq | ⟨t, p, hp, heq⟩
    · rw [heq]
      exact h
    · rw [heq]
      exact h.withdraw hp
  | timer core env t client => exact h.call fun o _ => steps_timer env t client o

/-! ### Cores that are lost -/

/-- Every core that was not taken out of the table by itself is found by the messages of its transaction. -/
def Complete (s : Server) : Prop :=
  ∀ k o, s.cores[k]? = some o → o.core.registered = true →
    s.proxies.lookup (makeUniqueSipTransactionIdentifier o.sip) = some k

/-- A timer of a core that is out of the table does not take out another one with the same identifier. -/
def Clean (s : Server) : Event → Prop
  | .timer k env t client => ∀ o ∈ s.cores[k]?, o.core.registered = false →
      removes (fun x => x.step ⟨env, .timer t client⟩) o.core = true → makeUniqueSipTransactionIdentifier o.sip ∉ s.proxies
  | _ => True

instance : ∀ s e, Decidable (Clean s e)
  | s, .timer k env t client => inferInstanceAs (Decidable (∀ o ∈ s.cores[k]?, o.core.registered = false →
      removes (fun x => x.step ⟨env, .timer t client⟩) o.core = true → makeUniqueSipTransactionIdentifier o.sip ∉ s.proxies))
  | _, .request _ _ => isTrue trivial
  | _, .response _ _ => isTrue trivial
  | _, .doProxy _ _ _ _ _ => isTrue trivial
  | _, .setupLegForIncomingRequest _ => isTrue trivial
  | _, .timeout _ => isTrue trivial

/-- A call of a core does not put it back, and takes the entry of no other one, if there is none under its identifier. -/
theorem Complete.call {o : Core} (h : Complete s) (hk : s.cores[k]? = some o)
    (hback : (f o.core).registered = true → o.core.registered = true)
    (hclean : o.core.registered = false → removes f o.core = true → makeUniqueSipTransactionIdentifier o.sip ∉ s.proxies) :
    Complete (s.call k f) := by
  have hlen : k < s.cores.length := (List.getElem?_eq_some_iff.mp hk).1
  rw [call_eq hk]
  intro k' o' ho' hreg'
  by_cases hkk : k = k'
  · subst hkk
    obtain rfl := Option.some.inj ((List.getElem?_set_self hlen).symm.trans ho')
    have hreg := hback hreg'
    have hstays : removes f o.core = false := by
      rw [removes_of_registered hreg]
      exact congrArg (! ·) hreg'
    dsimp only
    rw [if_neg (Bool.eq_false_iff.mp hstays)]
    exact h k o hk hreg
  · have hold : s.cores[k']? = some o' := (List.getElem?_set_ne hkk).symm.trans ho'
    have hlookup := h k' o' hold hreg'
    dsimp only
    split
    · rename_i hremoves
      refine AList.lookup_erase_eq_some.mpr ⟨fun hsame => ?_, hlookup⟩
      rw [hsame] at hlookup
      cases hreg : o.core.registered with
      | true => exact hkk (Option.some.inj ((h k o hk hreg).symm.trans hlookup))
      | false => exact hclean hreg hremoves (AList.mem_of_lookup hlookup)
    · exact hlookup

theorem Complete.move (h : Complete s) (hmove : Move s t) : Complete t := by
  cases hmove with
  | calm => exact h
  | add p hp => exact h
  | cancel p => exact h
  | call hk hreg hsteps => exact h.call hk (fun _ => hreg) fun hnot => absurd hreg (Bool.eq_false_iff.mp hnot)

theorem Complete.doProxy (ho : Owned s) (h : Complete s) (transactionId : String) (k : Proxy.Settings) (env : Proxy.Env)
    (maxForwards : Option UInt64) (destinations : List String) :
    Complete (s.doProxy transactionId k env maxForwards destinations) := by
  rcases doProxy_cases ho transactionId k env maxForwards destinations with heq | ⟨p, method, hp, hmethod, hnew, hnot, heq⟩
  · rw [heq]
    exact h
  · rw [heq]
    intro k' o hk' hreg
    dsimp only at hk' ⊢
    rcases Nat.lt_or_ge k' s.cores.length with hlt | hge
    · rw [List.getElem?_append_left hlt] at hk'
      have hlookup := h k' o hk' hreg
      split
      · exact AList.lookup_insert_eq_some.mpr (Or.inr ⟨fun hsame => hnot (hsame ▸ AList.mem_of_lookup hlookup), hlookup⟩)
      · exact hlookup
    · rw [List.getElem?_append_right hge, List.getElem?_singleton] at hk'
      obtain ⟨hzero, ho'⟩ := Option.ite_none_right_eq_some.mp hk'
      obtain rfl := Option.some.inj ho'
      rw [if_pos hreg, AList.lookup_insert]
      exact congrArg some (Nat.le_antisymm hge (Nat.sub_eq_zero_iff_le.mp hzero))

/-- What a step leaves -/
def next (c : Setup) (s : Server) (e : Event) : Server := (s.step c e).1

theorem complete_next_iff {e : Event} (ho : Owned s) (h : Complete s) (hfresh : Fresh s e) :
    Complete (next c s e) ↔ Clean s e := by
  unfold next
  cases e with
  | request env req =>
    refine iff_of_true ?_ trivial
    show Complete (s.request c env req).1
    unfold request
    split
    · have hheard : Complete { s with aliases := s.aliases.cacheContactAlias c.contactAlias req.tport (some req.heard) } := h
      exact hheard.move (move_processScreened (ho.hear _) hfresh)
    · exact h
  | response env r => exact iff_of_true (h.move (move_response ho)) trivial
  | doProxy transactionId k env maxForwards destinations =>
    exact iff_of_true (h.doProxy ho transactionId k env maxForwards destinations) trivial
  | setupLegForIncomingRequest transactionId => exact iff_of_true h trivial
  | timeout handle => exact iff_of_true h trivial
  | timer k env t client =>
    constructor
    · intro hnext o hk hreg hremoves hmem
      obtain ⟨k', hk'⟩ := Option.isSome_iff_exists.mp (AList.lookup_isSome.mpr hmem)
      obtain ⟨o', ho', hid, hreg'⟩ := ho.found _ k' hk'
      have hne : k ≠ k' := by
        rintro rfl
        obtain rfl := Option.some.inj (ho'.symm.trans hk)
        exact Bool.false_ne_true (hreg.symm.trans hreg')
      have hlost := hnext k' o' (by
        show (s.call k _).cores[k']? = some o'
        rw [call_eq hk]
        exact (List.getElem?_set_ne hne).trans ho') hreg'
      have hgone : (s.call k fun x => x.step ⟨env, .timer t client⟩).proxies.lookup
          (makeUniqueSipTransactionIdentifier o'.sip) = none := by
        rw [call_eq hk, hid]
        dsimp only
        rw [if_pos hremoves]
        exact AList.lookup_erase _ _
      exact nomatch hgone.symm.trans hlost
    · intro hclean
      show Complete (s.call k fun x => x.step ⟨env, .timer t client⟩)
      cases hk : s.cores[k]? with
      | none =>
        unfold Server.call
        rw [hk]
        exact h
      | some o => exact h.call hk (fun hreg => (Proxy.step_chain o.core _).registered hreg) (hclean o hk)

/-! ### Runs -/

variable {es : List Event}

theorem owned_run (hfresh : Meets (next c) Fresh empty es) : Owned (run (next c) empty es) :=
  Machine.run_induction (fun _ _ h hstep => h.step hstep) owned_empty hfresh

/-- A transaction has one owner: no request is pending while a core is found by its identifier, so that the core of a proxy
    command is never hidden behind an older one; and what the table names is a core of that very transaction, which has
    not been taken out of the table. -/
theorem one_owner (hfresh : Meets (next c) Fresh empty es) :
    (∀ transactionId p, (run (next c) empty es).pending.txnId2Invite.lookup transactionId = some p →
      makeUniqueSipTransactionIdentifier p.sip ∉ (run (next c) empty es).proxies) ∧
    ∀ sip k, (run (next c) empty es).proxies.getProxy sip = some k → ∃ o, (run (next c) empty es).cores[k]? = some o ∧
      makeUniqueSipTransactionIdentifier sip = (transactionOf o.sip).id ∧ o.core.registered = true := by
  have h := owned_run hfresh
  constructor
  · intro transactionId p hp
    obtain ⟨-, hcall, -⟩ := h.paired.txn transactionId p hp
    obtain ⟨method, hmethod, -⟩ := h.kind _ p hcall
    rw [identifier_eq hmethod]
    exact h.apart _ (AList.mem_of_lookup hcall)
  · intro sip k hk
    obtain ⟨o, ho, hid, hreg, howner⟩ := h.getProxy hk
    exact ⟨o, ho, hid.symm.trans (identifier_owner howner), hreg⟩

/-- Whatever happens to the others, every core that was ever made is in a state that its own machine reaches from a proxy
    command, and it never forwarded an INFO. -/
theorem cores_run_alone (hfresh : Meets (next c) Fresh empty es) : ∀ o ∈ (run (next c) empty es).cores,
    ∃ k env req destinations inputs, (∀ i ∈ inputs, ∀ r, i.event ≠ .info r) ∧ o.sip.request = some req.method ∧
      o.core = run ProxyCore.step (ProxyCore.doProxy k env req destinations) inputs := by
  intro o ho
  obtain ⟨⟨m, hm, -, hmethod⟩, k, env, req, destinations, inputs, hinfo, hrun⟩ := (owned_run hfresh).owner o ho
  refine ⟨k, env, req, destinations, inputs, hinfo, ?_, hrun⟩
  have hkept : (run ProxyCore.step (ProxyCore.doProxy k env req destinations) inputs).request = req :=
    Machine.run_invariant (I := fun s : ProxyCore => s.request = req) (fun _ _ h => Proxy.step_request.trans h)
      Proxy.doProxy_request
  rw [hm, ← hmethod, hrun, hkept]

/-- After every step the messages of a transaction find its core unless it was taken out of the table by itself, exactly if no
    timer of a core that is out of it takes out another one, which was made for the same transaction later. -/
theorem found_iff (hfresh : Meets (next c) Fresh empty es) :
    Meets (next c) (fun s e => Complete (next c s e)) empty es ↔ Meets (next c) Clean empty es :=
  hfresh.iff_of_legal (I := fun s => Owned s ∧ Complete s) (fun _ _ h hstep => complete_next_iff h.1 h.2 hstep)
    (fun _ _ h hstep hclean => ⟨h.1.step hstep, (complete_next_iff h.1 h.2 hstep).mpr hclean⟩)
    ⟨owned_empty, fun _ _ hk => absurd hk nofun⟩

/-! ### A core that is lost -/

def setup : Setup where
  spammers := []
  contactAlias := false
  rejectRegisterWithNoRealm := false
  alwaysSend180 := false
  userAgentAutoAnswerOptions := []
  requestRouter := ∅
  transports := ∅

def invite : NetRequest where
  sip := .ofMethod .invite (.ofString "a") 1 [⟨some (.ofString "z")⟩]
  method := .invite
  isRequest := rfl
  unnamed := nofun
  tport := some ⟨0, true, false, ⟨none, none, none⟩, 0⟩
  sane := true
  error := false
  userAgent := none
  fromUser := none
  toUser := none
  toTag := false
  route := none
  contact := none
  expires := none
  urlHost := none
  maxForwards := none
  rack := 0

/-- What a core meets, with or without a transport for its targets -/
def meets (hasTransport : Bool) : Proxy.Env where
  hasTransport := fun _ => hasTransport
  sendRequest := fun _ => true
  sendCancel := fun _ => true
  sendPrack := fun _ => true
  sendResponse := true
  suRandom := 0
  uuid := 0
  junk := fun _ => 0

def arrives (uuid : String) (handle : Nat) : DispatchEnv where
  blackListed := false
  trying := true
  ringing := true
  hasTransport := true
  send := true
  client := some 7
  cancelClient := none
  address := handle
  uuid := uuid
  handle := handle
  core := meets true

/-- An INVITE is proxied to a target without a transport and gets a 500. Its retransmission comes later, is proxied with
    success, and then timer B of the first core expires. -/
def stale : List Event :=
  [.request (arrives "t0" 0) invite, .doProxy "t0" ⟨.serial, false, false, 0⟩ (meets false) none ["sip:a"],
    .request (arrives "t1" 1) invite, .doProxy "t1" ⟨.serial, false, false, 0⟩ (meets true) none ["sip:b"],
    .timer 0 (meets true) .timerB 0]

def calling : List Event :=
  [.request (arrives "t0" 0) invite, .doProxy "t0" ⟨.serial, false, false, 0⟩ (meets true) none ["sip:b"]]

theorem one_owner_calling : ∃ o, (run (next setup) empty calling).cores[0]? = some o ∧
    makeUniqueSipTransactionIdentifier invite.sip = (transactionOf o.sip).id ∧ o.core.registered = true :=
  (@one_owner setup calling (by decide)).2 invite.sip 0 (by decide)

theorem cores_run_alone_calling : ∃ o ∈ (run (next setup) empty calling).cores,
    ∃ k env req destinations inputs, (∀ i ∈ inputs, ∀ r, i.event ≠ .info r) ∧ o.sip.request = some req.method ∧
      o.core = run ProxyCore.step (ProxyCore.doProxy k env req destinations) inputs := by
  have hmade : (run (next setup) empty calling).cores ≠ [] := fun h => absurd (congrArg List.length h) (by decide)
  have hmem := List.head_mem hmade
  exact ⟨_, hmem, @cores_run_alone setup calling (by decide) _ hmem⟩

theorem found_iff_stale : ¬ Meets (next setup) (fun s e => Complete (next setup s e)) empty stale := by
  rw [found_iff (by decide)]
  decide

end Drachtio.Controller.Server
