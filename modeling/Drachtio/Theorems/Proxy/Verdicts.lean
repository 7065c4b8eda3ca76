import Drachtio.Theorems.Proxy.Launch
import Drachtio.Theorems.Proxy.Upstream

/-! When a best response is selected. The test for it looks for transactions that are calling or proceeding, and
    nobody else: a target that waits is overlooked unless it was started just before, and so is a request other
    than INVITE that has no response yet. -/

namespace Drachtio.Proxy
open ProxyCore

def Output.selection : Output → Option (List TransactionState)
  | .bestResponse states => some states
  | _ => none

/-- Unless a challenge was received, each selection found every client transaction completed or terminated. -/
def Thorough (s : ProxyCore) : Prop :=
  (∀ r, .received r ∈ s.log → savedChallenge r = none) →
    ∀ states, .bestResponse states ∈ s.log → ∀ n ∈ states, n = .completed ∨ n = .terminated

/-- The response leaves its transaction being called, or it answers the request. -/
def ClientTransaction.Occupied (r : Response) (c : ClientTransaction) : Prop :=
  c.state ≠ .terminated ∧ ((100 ≤ r.status ∧ r.status ≤ 199) ∨ (200 ≤ r.status ∧ r.status ≤ 299 ∧ c.state ≠ .completed) ∨
    r.status < 100 ∧ c.isCallingOrProceeding = true)

instance (r : Response) (c : ClientTransaction) : Decidable (c.Occupied r) := inferInstanceAs (Decidable (_ ∧ _))

/-- What may be followed by a selection: a response with a challenge, and a response or one of the timers that finds
    nobody else being called and does not leave its own transaction so. -/
def MaySelect (s : ProxyCore) : Event → Prop
  | .response r => (s.registered = true ∧ r.method = s.request.method ∧ r.method ≠ .prack) ∧
      (savedChallenge r = none → (∀ d ∈ s.clients, d.isCallingOrProceeding = true → s.taker r = some d) ∧
        ∀ c ∈ s.taker r, ¬c.Occupied r)
  | .timer n id => (n = .timerB ∨ n = .timerC ∨ n = .timerProvisional) ∧ (s.firing n id).isSome = true ∧
      ¬OthersCalled s id
  | _ => False

instance (s : ProxyCore) : ∀ e, Decidable (MaySelect s e)
  | .response r => inferInstanceAs (Decidable (_ ∧ (_ → (∀ d ∈ s.clients, _) ∧ ∀ c ∈ s.taker r, _)))
  | .timer _ _ => inferInstanceAs (Decidable (_ ∧ _ ∧ _))
  | .cancel | .info _ | .prack _ => isFalse id

/-- Starting those that wait leaves one of them being called or nobody waiting: an INVITE that is the first of several
    does not fail to be sent; any other request is overlooked, unless it fails to be sent. -/
def Clears (k : Settings) (env : Env) (req : Request) (l : List ClientTransaction) : Prop :=
  (req.method = .invite → k.launchType = .serial → 2 ≤ l.length → ∀ c ∈ l.head?, c.failsToSend env = false) ∧
    (req.method ≠ .invite → (k.launchType = .serial → l.length ≤ 1) ∧ ∀ c ∈ l, c.failsToSend env = true)

instance (k : Settings) (env : Env) (req : Request) (l : List ClientTransaction) : Decidable (Clears k env req l) :=
  inferInstanceAs (Decidable ((_ → _ → _ → _) ∧ (_ → _ ∧ _)))

/-- While the search goes on, a response or one of the timers that may end it finds another transaction being called,
    or leaves its own so, or overlooks nobody. -/
def NoneOverlooked (s : ProxyCore) (env : Env) : Event → Prop
  | .response r => s.registered = true ∧ r.method = s.request.method ∧ r.method ≠ .prack → s.searching = true →
      savedChallenge r = none →
      (∃ d ∈ s.clients, d.isCallingOrProceeding = true ∧ s.taker r ≠ some d) ∨ (∃ c ∈ s.taker r, c.Occupied r) ∨
      (∀ d ∈ s.clients, d.state = .trying → s.taker r = some d ∧ 300 ≤ r.status) ∧
        (200 < r.status → Clears s.settings env s.request (s.upcoming env r)) ∧
        (r.status ≤ 200 → s.upcoming env r = [])
  | .timer .timerB id => (s.firing .timerB id).isSome = true → s.searching = true → OthersCalled s id ∨ s.waiting = []
  | .timer .timerC id => (s.firing .timerC id).isSome = true → s.searching = true → OthersCalled s id ∨ s.waiting = []
  | .timer .timerProvisional id => (s.firing .timerProvisional id).isSome = true → s.searching = true →
      OthersCalled s id ∨ Clears s.settings env s.request s.waiting
  | _ => True

instance (s : ProxyCore) (env : Env) : ∀ e, Decidable (NoneOverlooked s env e)
  | .response r =>
    have : Decidable ((∀ d ∈ s.clients, d.state = .trying → s.taker r = some d ∧ 300 ≤ r.status) ∧
        (200 < r.status → Clears s.settings env s.request (s.upcoming env r)) ∧
        (r.status ≤ 200 → s.upcoming env r = [])) := inferInstance
    inferInstanceAs (Decidable (_ → _ → _ → (∃ d ∈ s.clients, _) ∨ (∃ c ∈ s.taker r, _) ∨ _))
  | .timer .timerB _ | .timer .timerC _ | .timer .timerProvisional _ => inferInstanceAs (Decidable (_ → _ → _ ∨ _))
  | .timer .timerA _ | .timer .timerD _ | .timer .timerE _ | .timer .timerF _ | .timer .timerK _ => isTrue trivial
  | .cancel | .info _ | .prack _ => isTrue trivial

/-! ### Selections -/

theorem picks_selection : Picks Output.selection := fun x hx => by cases x <;> first | rfl | cases hx

section
variable {s t : ProxyCore} {env : Env} {r : Response} {i : Input} {c d : ClientTransaction} {k : Settings} {req : Request}
  {l : List ClientTransaction}

theorem writes_forwarded : Writes Output.selection s (s.forwardResponse env r) [] := by
  have h : Writes Output.selection s (s.forwardResponse env r) _ := writes_forwardResponse (v := none) fun _ => rfl
  simpa using h

/-- A selection writes the states that it finds. -/
theorem writes_forwardBestResponse : Writes Output.selection s (s.forwardBestResponse env) [s.all.map (·.state)] := by
  have done : ∀ {t : ProxyCore}, Writes Output.selection s t [s.all.map (·.state)] → Writes Output.selection s
      (if t.settings.fullResponse then t.emit [.api .done] else t) [s.all.map (·.state)] := fun {t} ht => by
    split
    · exact ht.then writes_emit
    · exact ht
  have hsel : Writes Output.selection s { ((s.emit [.bestResponse (s.all.map (·.state))]).endSearch) with
      clients := sortBest s.clients } [s.all.map (·.state)] :=
    ⟨[.bestResponse (s.all.map (·.state)), .searchOver], by simp, rfl⟩
  unfold ProxyCore.forwardBestResponse
  dsimp only
  apply done
  split
  · exact hsel.then writes_emit
  · split
    · exact hsel.then writes_emit
    · exact hsel.then writes_forwarded

theorem writes_finishSearch (h : s.searching = true → s.exhaustedAllTargets = true → ∀ c ∈ s.all, c.isDone = true) :
    ∃ u, Writes Output.selection s (s.finishSearch env) u ∧ ∀ states ∈ u, ∀ n ∈ states, n = .completed ∨ n = .terminated := by
  unfold ProxyCore.finishSearch
  split
  · rename_i hs
    refine ⟨_, writes_forwardBestResponse, fun states hst n hn => ?_⟩
    rw [List.mem_singleton.mp hst] at hn
    obtain ⟨c, hc, rfl⟩ := List.mem_map.mp hn
    exact ClientTransaction.isDone_iff.mp (h hs.1 hs.2 c hc)
  · exact ⟨[], .refl, by simp⟩

/-- Nothing is selected while somebody is being called. -/
theorem Writes.called (h : Writes Output.selection s t []) (hcalled : ∃ d ∈ t.clients, d.isCallingOrProceeding = true) :
    Writes Output.selection s (t.finishSearch env) [] := by
  rwa [finishSearch_called hcalled]

theorem done_of_not (hns : c.state ≠ .notStarted) (htry : c.state ≠ .trying) (hex : c.isCallingOrProceeding = false) :
    c.isDone = true := by
  rw [ClientTransaction.isDone_iff]
  cases hs : c.state <;> simp_all [ClientTransaction.isCallingOrProceeding]

/-- Once those that wait were started, whoever is not being called is done. -/
theorem launch_done (hcl : Clears k env req (l.filter (·.state == .notStarted))) (htry : ∀ d ∈ l, d.state ≠ .trying)
    (hex : ∀ e ∈ (launch k env req l).1, e.isCallingOrProceeding = false) (hd : d ∈ (launch k env req l).1) :
    d.isDone = true := by
  by_cases hi : req.method = .invite
  · have hcl := hcl.1 hi
    have hns : d.state ≠ .notStarted := fun hs => by
      obtain ⟨hser, hlen, c, hc, hf⟩ := launch_stuck hi hd hs hex
      rw [hcl hser hlen c hc] at hf
      cases hf
    rcases mem_launch_cases hd with hl | ⟨c, hc, hs, rfl⟩
    · exact done_of_not hns (htry d hl) (hex d hd)
    · refine done_of_not hns ?_ (hex _ hd)
      rw [ClientTransaction.forwardRequest_launch_state hs, if_pos hi]
      split <;> simp
  · rcases launch_failed (hcl.2 hi).2 (hcl.2 hi).1 hd with ⟨hl, hns⟩ | hterm
    · exact done_of_not hns (htry d hl) (hex d hd)
    · exact ClientTransaction.isDone_iff.mpr (Or.inr hterm)

/-! ### Responses -/

theorem startRequests_clients (hs : s.searching = true) :
    (s.startRequests env).1.clients = (launch s.settings env s.request s.clients).1 := by
  unfold ProxyCore.startRequests
  rw [if_pos hs]

/-- Those that wait are started, or nobody waits: when the search ends then, everyone is done. -/
theorem restarted_done (hs : t.searching = true) (htry : ∀ d ∈ t.clients, d.state ≠ .trying)
    (hcl : Clears t.settings env t.request t.waiting) (hex : (t.startRequests env).1.exhaustedAllTargets = true)
    (hd : d ∈ (t.startRequests env).1.clients) : d.isDone = true := by
  have hex := exhausted_eq_true.mp hex
  rw [startRequests_clients hs] at hd hex
  exact launch_done hcl htry hex hd

theorem pruned_done (htry : ∀ d ∈ t.clients, d.state ≠ .trying) (hno : t.waiting = [])
    (hex : t.exhaustedAllTargets = true) (hd : d ∈ t.clients) : d.isDone = true := by
  refine done_of_not (fun hs => ?_) (htry d hd) (exhausted_eq_true.mp hex d hd)
  have hw : d ∈ t.waiting := List.mem_filter.mpr ⟨hd, by simp [hs]⟩
  rw [hno] at hw
  cases hw

theorem mem_removeTerminated_clients {b : Bool} (hd : d ∈ (t.removeTerminated b).clients) : d ∈ t.clients :=
  (List.mem_filter.mp hd).1

theorem relaunch_done (h : Surveyed s) (he : i.event = .response r) (hch : savedChallenge r = none)
    (hchain : Chain s i s t) (htry : ∀ d ∈ t.clients, d.state ≠ .trying)
    (hcl : 200 < r.status → Clears s.settings i.env s.request t.waiting) (hno : r.status ≤ 200 → t.waiting = [])
    (hs : (t.relaunch i.env r).searching = true) (hex : (t.relaunch i.env r).exhaustedAllTargets = true) :
    ∀ d ∈ (t.relaunch i.env r).all, d.isDone = true := by
  obtain ⟨-, hgone⟩ := chain_parted h.toReached h.parted (chain_relaunch (r := r) hchain)
  obtain ⟨hset, hreq⟩ := hchain.const
  intro d hd
  rcases List.mem_append.mp hd with hd | hd
  · have htry' : ∀ d ∈ (t.removeTerminated false).clients, d.state ≠ .trying := fun d hd =>
      htry d (mem_removeTerminated_clients hd)
    have hs' : (t.removeTerminated false).searching = true := by simpa using hs
    unfold ProxyCore.relaunch at hd hex
    split at hd
    · rename_i hst
      rw [if_pos hst] at hex
      refine restarted_done hs' htry' ?_ hex hd
      rw [waiting_removeTerminated, removeTerminated_settings, removeTerminated_request, hset, hreq]
      exact hcl hst
    · rename_i hst
      rw [if_neg hst] at hex
      refine pruned_done htry' ?_ hex hd
      rw [waiting_removeTerminated]
      exact hno (by omega)
  · rcases hgone hs with ⟨r', he', hch'⟩ | hdone
    · rw [he] at he'
      cases he'
      simp [hch] at hch'
    · exact hdone d hd

/-- A response leaves its transaction trying only if it is not a proper one. -/
theorem processResponse_trying (hm : c.method = r.method)
    (h : (c.processResponse k env r).1.1.state = .trying) : c.state = .trying ∧ r.status < 100 := by
  rw [ClientTransaction.processResponse_state hm] at h
  split at h
  · cases h
  · split at h
    · rename_i hs
      rcases hs with hs | ⟨hs, -⟩ <;> rw [hs] at h <;> cases h
    · rw [ClientTransaction.processNewResponse_state] at h
      split at h
      · cases h
      · split at h
        · split at h <;> cases h
        · split at h
          · cases h
          · exact ⟨h, by omega⟩

/-- Nobody is trying once a response was handed over, if nobody else was and its own transaction is done. -/
theorem handOver_trying (h : Surveyed s) (hc : s.taker r = some c) (hv : (c.processResponse s.settings env r).2 ≠ .answered)
    (htry : ∀ d ∈ s.clients, d.state = .trying → s.taker r = some d ∧ 300 ≤ r.status) :
    ∀ d ∈ (s.handOver env r c).clients, d.state ≠ .trying := by
  obtain ⟨hmem, -, hm⟩ := taker_spec h.toReached hc
  intro d hd hs
  rw [handOver_clients h.toReached hc hv] at hd
  rcases mem_insertAfter hd with hd | hd
  · obtain ⟨e, he, rfl⟩ := List.mem_map.mp hd
    split at hs
    · obtain ⟨hct, hst⟩ := processResponse_trying hm hs
      have := (htry c hmem hct).2
      omega
    · rename_i hne
      obtain ⟨htk, -⟩ := htry e he hs
      rw [hc] at htk
      cases htk
      exact hne rfl
  · obtain ⟨id, target, -, rfl⟩ := mem_newClients hd
    cases hs

/-- A response that keeps its transaction occupied ends the search or leaves somebody being called. -/
theorem occupied_after (ho : c.Occupied r) (hm : c.method = r.method)
    (hv : (c.processResponse k env r).2 ≠ .answered) : (c.processResponse k env r).1.1.isCallingOrProceeding = true := by
  obtain ⟨hterm, ho⟩ := ho
  by_cases hlate : c.isLate r = true
  · simp [ClientTransaction.isCallingOrProceeding, (ClientTransaction.processResponse_late hlate).1]
  · have hlate : c.isLate r = false := by simpa using hlate
    rcases ho with h1 | ⟨h2, h3, hcomp⟩ | ⟨h0, ha⟩
    · rw [ClientTransaction.processResponse_new hterm hlate hm (by omega), ClientTransaction.isCallingOrProceeding,
        ClientTransaction.processNewResponse_state, if_pos h1]
      rfl
    · rw [ClientTransaction.processResponse_new hterm hlate hm (fun hc => hcomp hc.1),
        ClientTransaction.processNewResponse_verdict, if_neg (by omega), if_pos ⟨h2, h3⟩] at hv
      exact absurd rfl hv
    · exact active_after ha hm (by omega) hv

theorem writes_taken (hr : Reached s) (he : i.event = .response r) (hc : s.taker r = some c) :
    Writes Output.selection s ((s.handOver i.env r c).relaunch i.env r) [] := by
  have hover : Writes Output.selection s (s.handOver i.env r c) _ :=
    writes_handOver picks_selection hr he hc (v := none) fun _ => rfl
  simp only [Option.toList_none, ite_self] at hover
  exact hover.trans (writes_relaunch picks_selection.plain)

/-- Somebody who is being called keeps the search going. -/
theorem unselecting_taken (hr : Reached s) (he : i.event = .response r) (hc : s.taker r = some c)
    (hq : ¬MaySelect s (.response r)) : Writes Output.selection s (s.step i) [] := by
  obtain ⟨hreg, hmeth, hprack, -⟩ := taker_eq_some.mp hc
  obtain ⟨-, -, hm⟩ := taker_spec hr hc
  obtain ⟨hch, hcalled⟩ := Classical.not_imp.mp fun hnone => hq ⟨⟨hreg, hmeth, hprack⟩, hnone⟩
  rw [step_taken he hc]
  unfold ProxyCore.followUp
  rw [hch]
  dsimp only
  unfold ProxyCore.finishSearch
  split
  · rename_i hend
    refine absurd (Or.inr hend) (taken_quiet hr hc hch fun _ hv => ?_)
    by_contra hnobody
    obtain ⟨hothers, hown⟩ := not_or.mp hnobody
    refine hcalled ⟨fun d hd ha => ?_, fun d hd hocc => ?_⟩
    · by_contra hne
      exact hothers ⟨d, hd, ha, fun e => hne (e ▸ hc)⟩
    · cases hc.symm.trans hd
      exact hown (occupied_after hocc hm hv)
  · exact writes_taken hr he hc

theorem thorough_taken (h : Surveyed s) (he : i.event = .response r) (hc : s.taker r = some c) (hch : savedChallenge r = none)
    (hq : MaySelect s (.response r)) (ho : NoneOverlooked s i.env i.event) : ∃ u, Writes Output.selection s (s.step i) u ∧
      ∀ states ∈ u, ∀ n ∈ states, n = .completed ∨ n = .terminated := by
  rw [he] at ho
  obtain ⟨hregistered, hnobody⟩ := hq
  rw [step_taken he hc]
  unfold ProxyCore.followUp
  rw [hch]
  dsimp only
  suffices hdone : ((s.handOver i.env r c).relaunch i.env r).searching = true →
      ((s.handOver i.env r c).relaunch i.env r).exhaustedAllTargets = true →
      ∀ d ∈ ((s.handOver i.env r c).relaunch i.env r).all, d.isDone = true by
    obtain ⟨u, hu, hall⟩ := writes_finishSearch hdone
    exact ⟨u, (writes_taken h.toReached he hc).trans hu, hall⟩
  intro hs hex
  have hsearch := hs
  rw [relaunch_searching, handOver_searching, Bool.and_eq_true, bne_iff_ne] at hsearch
  rcases ho hregistered hsearch.1 hch with ⟨d, hd, ha, hne⟩ | ⟨d, hd, hocc⟩ | ⟨htry, hcl, hno⟩
  · exact absurd ((hnobody hch).1 d hd ha) hne
  · exact absurd hocc ((hnobody hch).2 d hd)
  · refine relaunch_done h he hch (chain_handOver he hc) (handOver_trying h hc hsearch.2 htry) ?_ ?_ hs hex
    · rw [waiting_handOver h.toReached hc hsearch.2]
      exact hcl
    · rw [waiting_handOver h.toReached hc hsearch.2]
      exact hno

theorem unselecting_untaken (he : i.event = .response r) (hc : s.taker r = none) (hq : ¬MaySelect s (.response r)) :
    Writes Output.selection s (s.step i) [] := by
  by_cases hm : r.method = s.request.method
  · rw [step_untaken he hm hc]
    have h0 : Writes Output.selection s (s.emit [.received r]) [] := writes_emit
    split
    · rename_i hreg
      obtain ⟨hch, hcalled⟩ := Classical.not_imp.mp fun hnone => hq ⟨⟨hreg.1, hm, hreg.2⟩, hnone⟩
      have hothers : ∃ d ∈ s.clients, d.isCallingOrProceeding = true := by
        by_contra hnobody
        refine hcalled ⟨fun d hd ha => absurd ⟨d, hd, ha⟩ hnobody, fun d hd => ?_⟩
        rw [hc] at hd
        cases hd
      obtain ⟨d, hd, ha⟩ := hothers
      unfold ProxyCore.followUp
      rw [hch]
      dsimp only
      have hcalled : d ∈ ((s.emit [.received r]).relaunch i.env r).clients :=
        mem_clients_relaunch (s := s.emit [.received r]) hd ha
      exact ((h0.trans (writes_relaunch picks_selection.plain)).called ⟨d, hcalled, ha⟩).trans writes_emit
    · exact h0.trans writes_emit
  · rw [step_foreign he hm]
    exact .refl

theorem thorough_untaken (h : Surveyed s) (he : i.event = .response r) (hc : s.taker r = none)
    (hch : savedChallenge r = none) (hq : MaySelect s (.response r)) (ho : NoneOverlooked s i.env i.event) :
    ∃ u, Writes Output.selection s (s.step i) u ∧ ∀ states ∈ u, ∀ n ∈ states, n = .completed ∨ n = .terminated := by
  rw [he] at ho
  obtain ⟨-, hnobody⟩ := hq
  by_cases hm : r.method = s.request.method
  · rw [step_untaken he hm hc]
    have h0 : Writes Output.selection s (s.emit [.received r]) [] := writes_emit
    split
    · rename_i hreg
      have hchain : Chain s i s (s.emit [.received r]) := .single (.note _ rfl rfl rfl)
      have hwait : (s.emit [.received r]).waiting = s.upcoming i.env r := by
        unfold ProxyCore.upcoming
        rw [hc]
        rfl
      unfold ProxyCore.followUp
      rw [hch]
      dsimp only
      suffices hdone : ((s.emit [.received r]).relaunch i.env r).searching = true →
          ((s.emit [.received r]).relaunch i.env r).exhaustedAllTargets = true →
          ∀ d ∈ ((s.emit [.received r]).relaunch i.env r).all, d.isDone = true by
        obtain ⟨u, hu, hall⟩ := writes_finishSearch hdone
        exact ⟨u, (((h0.trans (writes_relaunch picks_selection.plain)).trans hu).then writes_emit), hall⟩
      intro hs hex
      have hsearch : s.searching = true := by simpa using hs
      rcases ho ⟨hreg.1, hm, hreg.2⟩ hsearch hch with ⟨d, hd, ha, hne⟩ | ⟨d, hd, -⟩ | ⟨htry, hcl, hno⟩
      · exact absurd ((hnobody hch).1 d hd ha) hne
      · rw [hc] at hd
        cases hd
      · refine relaunch_done h he hch hchain (fun d hd hst => ?_) (hwait ▸ hcl) (hwait ▸ hno) hs hex
        have htk := (htry d hd hst).1
        rw [hc] at htk
        cases htk
    · exact ⟨[], h0.trans writes_emit, by simp⟩
  · rw [step_foreign he hm]
    exact ⟨[], .refl, by simp⟩

/-! ### Timers -/

/-- No action on a client transaction is a selection. -/
theorem selection_acts {x : ClientTransaction × List Output} (hr : Reached s) (ha : Acts s i c x) :
    Writes Output.selection t (t.put x) [] := by
  refine ⟨x.2, rfl, List.filterMap_eq_nil_iff.mpr fun y hy => ?_⟩
  by_cases hn : y.isNote = true
  · rw [((ha.outputs (hr.classified c ha.mem) y hy).2 hn).1]
    rfl
  · cases y <;> simp_all [Output.isNote, Output.selection]

/-- With another transaction being called the search goes on, and no other timer ends it. -/
theorem unselecting_fired {n : TimerName} {id : Nat} (hr : Reached s) (he : i.event = .timer n id)
    (hc : s.firing n id = some c) (hq : ¬MaySelect s (.timer n id)) : Writes Output.selection s (s.step i) [] := by
  obtain ⟨hfind, harm⟩ := firing_eq_some.mp hc
  obtain ⟨-, rfl, -⟩ := firing_spec hc
  have hput : ∀ u : ProxyCore, u.log = s.log → Writes Output.selection s ((u.emit [.timerFired n c.id]).put
      (c.timerFires s.settings i.env s.request n)) [] := fun u hu => by
    have hfire : Writes Output.selection s (u.emit [.timerFired n c.id]) [] := ⟨[.timerFired n c.id], by simp [hu], rfl⟩
    exact hfire.trans (selection_acts hr (.timer he hfind harm))
  have called : n = .timerB ∨ n = .timerC ∨ n = .timerProvisional → ∃ d ∈ s.clients, d.id ≠ c.id ∧
      d.isCallingOrProceeding = true := fun hn => by
    by_contra hothers
    exact hq ⟨hn, by simp [hc], hothers⟩
  have kept : ∀ (u : ProxyCore) {d : ClientTransaction}, d ∈ u.clients → d.id ≠ c.id → d.isCallingOrProceeding = true →
      d ∈ ((u.put (c.timerFires s.settings i.env s.request n)).removeTerminated false).clients := fun _ _ hd hne ha =>
    mem_clients_removeTerminated_active (mem_clients_put hd (by simpa using hne)) ha
  rw [step_fired he hc]
  cases n with
  | timerA => exact hput s rfl
  | timerE => exact hput s rfl
  | timerD => exact (hput s rfl).trans writes_removeTerminated
  | timerF => exact (hput s rfl).trans writes_removeTerminated
  | timerK => exact (hput s rfl).trans writes_removeTerminated
  | timerB =>
    obtain ⟨d, hd, hne, ha⟩ := called (by simp)
    exact ((hput s rfl).trans writes_removeTerminated).called ⟨d, kept (s.emit _) hd hne ha, ha⟩
  | timerC =>
    obtain ⟨d, hd, hne, ha⟩ := called (by simp)
    exact ((hput s rfl).trans writes_removeTerminated).called ⟨d, kept (s.emit _) hd hne ha, ha⟩
  | timerProvisional =>
    obtain ⟨d, hd, hne, ha⟩ := called (by simp)
    have hns : d.state ≠ .notStarted := by
      rintro hst
      simp [ClientTransaction.isCallingOrProceeding, hst] at ha
    have hpruned : Writes Output.selection s ((({ s.emit [.timerFired .timerProvisional c.id] with canceled := true }).put
        (c.timerFires s.settings i.env s.request .timerProvisional)).removeTerminated false) [] :=
      (hput { s with canceled := true } rfl).trans writes_removeTerminated
    have hstarted : Writes Output.selection s ((({ s.emit [.timerFired .timerProvisional c.id] with canceled := true }).put
        (c.timerFires s.settings i.env s.request .timerProvisional)).removeTerminated false |>.startRequests i.env).1 [] :=
      hpruned.trans (writes_startRequests picks_selection.plain)
    exact hstarted.called
      ⟨d, mem_clients_startRequests (kept { s.emit _ with canceled := true } hd hne ha) hns, ha⟩

theorem thorough_fired {n : TimerName} {id : Nat} (h : Surveyed s) (he : i.event = .timer n id)
    (hc : s.firing n id = some c) (hq : MaySelect s (.timer n id)) (ho : NoneOverlooked s i.env i.event) :
    ∃ u, Writes Output.selection s (s.step i) u ∧ ∀ states ∈ u, ∀ n ∈ states, n = .completed ∨ n = .terminated := by
  obtain ⟨hfind, harm⟩ := firing_eq_some.mp hc
  obtain ⟨hmem, rfl, -⟩ := firing_spec hc
  obtain ⟨hn, hfired, hothers⟩ := hq
  have ha : Acts s i c (c.timerFires s.settings i.env s.request n) := .timer he hfind harm
  rw [step_fired he hc]
  rw [he] at ho
  have hput : Writes Output.selection s ((s.emit [.timerFired n c.id]).put (c.timerFires s.settings i.env s.request n)) [] :=
    (writes_quiet picks_selection.plain (by simp [Output.isPlain, Output.isVerdict])).trans (selection_acts h.toReached ha)
  have hchain : Chain s i s ((s.emit [.timerFired n c.id]).put (c.timerFires s.settings i.env s.request n)) :=
    (Relation.ReflTransGen.single (.note _ rfl rfl rfl)).tail (.act ⟨rfl, rfl⟩ ha)
  have idle : ∀ {t : ProxyCore}, Chain s i s t → t.searching = true → (∀ d ∈ t.clients, d.isDone = true) →
      ∀ d ∈ t.all, d.isDone = true := fun {t} ht hs hcl d hd => by
    rcases List.mem_append.mp hd with hd | hd
    · exact hcl d hd
    · rcases (chain_parted h.toReached h.parted ht).2 hs with ⟨r, he', -⟩ | hg
      · rw [he] at he'
        cases he'
      · exact hg d hd
  have trying : ∀ d ∈ (((s.emit [.timerFired n c.id]).put
      (c.timerFires s.settings i.env s.request n)).removeTerminated false).clients, d.state ≠ .trying := fun d hd => by
    rcases mem_clients_fired h hc hn (mem_removeTerminated_clients hd) with hdone | ⟨hd, -⟩
    · rcases ClientTransaction.isDone_iff.mp hdone with hs | hs <;> simp [hs]
    · have hinv := (fired_invite h hc (by rcases hn with rfl | rfl | rfl <;> rfl)).2
      exact not_trying h hinv (List.mem_append_left _ hd)
  -- Timers B and C: those that wait are not started, so there must be none.
  have ends : n = .timerB ∨ n = .timerC → (s.searching = true → OthersCalled s c.id ∨ s.waiting = []) →
      ∃ u, Writes Output.selection s ((((s.emit [.timerFired n c.id]).put
        (c.timerFires s.settings i.env s.request n)).removeTerminated false).finishSearch i.env) u ∧
        ∀ states ∈ u, ∀ n ∈ states, n = .completed ∨ n = .terminated := fun hn ho => by
    obtain ⟨u, hu, hall⟩ : ∃ u, Writes Output.selection _ ((((s.emit [.timerFired n c.id]).put
        (c.timerFires s.settings i.env s.request n)).removeTerminated false).finishSearch i.env) u ∧ _ :=
      writes_finishSearch fun hs hex => by
        refine idle (hchain.tail .prune) hs fun d hd => pruned_done trying ?_ hex hd
        rw [waiting_removeTerminated, waiting_fired h.toReached hc
          (fired_invite h hc (by rcases hn with rfl | rfl <;> rfl)).1]
        exact (ho hs).resolve_left hothers
    exact ⟨u, (hput.trans writes_removeTerminated).trans hu, hall⟩
  cases n with
  | timerA | timerD | timerE | timerF | timerK => simp at hn
  | timerB => exact ends (Or.inl rfl) (ho hfired)
  | timerC => exact ends (Or.inr rfl) (ho hfired)
  | timerProvisional =>
    have hmark : Writes Output.selection s (({ s.emit [.timerFired .timerProvisional c.id] with canceled := true }).put
        (c.timerFires s.settings i.env s.request .timerProvisional)) [] := hput
    have hm : Chain s i s (({ s.emit [.timerFired .timerProvisional c.id] with canceled := true }).put
        (c.timerFires s.settings i.env s.request .timerProvisional)) :=
      ((Relation.ReflTransGen.single (.note _ rfl rfl rfl)).tail (.mark s.server.canceled)).tail (.act ⟨rfl, rfl⟩ ha)
    have hl := (fired_invite h hc rfl).1
    obtain ⟨u, hu, hall⟩ : ∃ u, Writes Output.selection _ (((((({ s.emit [.timerFired .timerProvisional c.id] with
        canceled := true }).put (c.timerFires s.settings i.env s.request .timerProvisional)).removeTerminated
          false).startRequests i.env).1).finishSearch i.env) u ∧ _ :=
      writes_finishSearch fun hs hex => by
        have hsearch : ((({ s.emit [.timerFired .timerProvisional c.id] with canceled := true }).put
            (c.timerFires s.settings i.env s.request .timerProvisional)).removeTerminated false).searching = true := by
          simpa using hs
        refine idle ((hm.tail .prune).tail .start) hs fun d hd => restarted_done hsearch trying ?_ hex hd
        have hwait : (({ s.emit [.timerFired .timerProvisional c.id] with canceled := true }).put
            (c.timerFires s.settings i.env s.request .timerProvisional)).waiting = s.waiting :=
          waiting_fired h.toReached hc hl
        rw [waiting_removeTerminated, hwait]
        exact (ho hfired hsearch).resolve_left hothers
    exact ⟨u, ((hmark.trans writes_removeTerminated).trans (writes_startRequests picks_selection.plain)).trans hu, hall⟩

/-- What cannot be followed by a selection selects nothing. -/
theorem writes_unselecting (hr : Reached s) (hq : ¬MaySelect s i.event) : Writes Output.selection s (s.step i) [] := by
  cases he : i.event with
  | response r =>
    rw [he] at hq
    cases hc : s.taker r with
    | some c => exact unselecting_taken hr he hc hq
    | none => exact unselecting_untaken he hc hq
  | timer n id =>
    rw [he] at hq
    cases hc : s.firing n id with
    | some c => exact unselecting_fired hr he hc hq
    | none =>
      rw [step_unfired he hc]
      exact .refl
  | cancel =>
    unfold ProxyCore.step
    rw [he]
    dsimp only
    split
    · have hmark : Writes Output.selection s { s with canceled := true, server.canceled := true } [] := .refl
      exact ((hmark.trans (writes_emit (w := [.okToCancel]))).trans (writes_emit (w := [.generateResponse 487]))).trans
        (writes_cancelOutstandingRequests picks_selection.plain)
    · exact .refl
  | info req => exact writes_request picks_selection hr (Or.inl ⟨req, he⟩)
  | prack rack => exact writes_request picks_selection hr (Or.inr ⟨rack, he⟩)

/-! ### Runs -/

/-- A response of this transaction is received. -/
theorem received_mem (he : i.event = .response r) (hm : r.method = s.request.method) : .received r ∈ (s.step i).log := by
  have hp : s.log ++ [.received r] <+: (s.step i).log := by
    cases hc : s.taker r with
    | some c =>
      rw [step_taken he hc]
      refine List.IsPrefix.trans ?_ (prefix_conclude.trans prefix_followUp)
      simp
    | none =>
      rw [step_untaken he hm hc, emit_log]
      refine List.IsPrefix.trans ?_ (List.prefix_append _ _)
      split
      · exact prefix_followUp (s := s.emit [.received r])
      · exact List.prefix_rfl
  exact hp.subset (by simp)

theorem step_selections (h : Surveyed s) (ho : NoneOverlooked s i.env i.event)
    (hch : ∀ r, .received r ∈ (s.step i).log → savedChallenge r = none) : ∃ u, Writes Output.selection s (s.step i) u ∧
      ∀ states ∈ u, ∀ n ∈ states, n = .completed ∨ n = .terminated := by
  by_cases hq : MaySelect s i.event
  · cases he : i.event with
    | response r =>
      rw [he] at hq
      have hnone := hch r (received_mem he hq.1.2.1)
      cases hc : s.taker r with
      | some c => exact thorough_taken h he hc hnone hq ho
      | none => exact thorough_untaken h he hc hnone hq ho
    | timer n id =>
      rw [he] at hq
      obtain ⟨c, hc⟩ := Option.isSome_iff_exists.mp hq.2.1
      exact thorough_fired h he hc hq ho
    | cancel | info req | prack rack =>
      rw [he] at hq
      exact absurd hq id
  · exact ⟨[], writes_unselecting h.toReached hq, nofun⟩

theorem step_thorough (h : Surveyed s) (ho : NoneOverlooked s i.env i.event) (ht : Thorough s) : Thorough (s.step i) := by
  intro hch states hmem n hn
  obtain ⟨u, hu, hall⟩ := step_selections h ho hch
  rw [step_log, List.mem_append] at hmem
  rcases hmem with hmem | hmem
  · refine ht (fun r hr => hch r ?_) states hmem n hn
    rw [step_log]
    exact List.mem_append_left _ hr
  · refine hall states ?_ n hn
    rw [← hu.written]
    exact List.mem_filterMap.mpr ⟨_, hmem, rfl⟩

end

theorem doProxy_searching {k : Settings} {env : Env} {req : Request} {destinations : List String} :
    (doProxy k env req destinations).searching = true := by
  refine doProxy_induction (P := fun s => s.searching = true) rfl (fun h => ?_) (fun _ _ _ h => h) (fun _ h => h)
  rw [startRequests_searching]
  exact h

/-- In every state of a run whose steps overlook nobody, each selection that no challenge caused found every client
    transaction started and completed or terminated. -/
theorem verdicts_thorough (k : Settings) (env : Env) (req : Request) (destinations : List String) (is : List Input)
    (h : Machine.Meets step (fun s i => NoneOverlooked s i.env i.event) (doProxy k env req destinations) is) :
    Thorough (Machine.run step (doProxy k env req destinations) is) := by
  refine (Machine.run_induction (I := fun s => Surveyed s ∧ Thorough s) (fun s i hs ho => ?_) ?_ h).2
  · exact ⟨step_surveyed hs.1 i, step_thorough hs.1 ho hs.2⟩
  · refine ⟨doProxy_surveyed, fun _ states hmem => ?_⟩
    have hover := doProxy_surveyed.sought.best states hmem
    rw [doProxy_searching] at hover
    cases hover

/-- The first of two targets does not answer: timer B ends the search, and the second target is never tried. The core
    is not canceled and forwarded nothing. -/
theorem verdicts_timerB :
    let s := Machine.run step (doProxy { launchType := .serial } .reliable { method := .invite }
      ["sip:a.example.org", "sip:b.example.org"]) [⟨.reliable, .timer .timerB 0⟩]
    s.canceled = false ∧ upstream s.log = [408] ∧ ¬Thorough s := by
  intro s
  refine ⟨by decide, by decide, fun h => ?_⟩
  have hlog : s.log = [.stateChange 0 .notStarted .calling, .sendRequest 0 .invite "sip:a.example.org" 70, .api .done,
      .timerFired .timerB 0, .stateChange 0 .calling .terminated, .bestResponse [.notStarted, .terminated], .searchOver,
      .generateResponse 408] := by decide
  have hnone : ∀ r, .received r ∉ s.log := by
    intro r hr
    rw [hlog] at hr
    simp at hr
  have hbest : .bestResponse [.notStarted, .terminated] ∈ s.log := by decide
  rcases h (fun r hr => absurd hr (hnone r)) _ hbest .notStarted (by simp) with hn | hn <;> cases hn

/-- The first target is busy, the second is tried, and when it is busy as well a best response is selected. -/
theorem verdicts_thorough_busy :
    let is : List Input := [⟨.reliable, .response { status := 486, method := .invite, branch := 0 }⟩,
      ⟨.reliable, .response { status := 486, method := .invite, branch := 1 }⟩]
    let s := doProxy { launchType := .serial } .reliable { method := .invite } ["sip:a.example.org", "sip:b.example.org"]
    .bestResponse [.completed, .completed] ∈ (Machine.run step s is).log ∧ Thorough (Machine.run step s is) :=
  ⟨by decide, verdicts_thorough _ _ _ _ _ (by decide)⟩

end Drachtio.Proxy
