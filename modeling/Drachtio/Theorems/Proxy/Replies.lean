import Drachtio.Theorems.Proxy.Writes

/-! What a core tells the application that asked for the request to be proxied. One that does not want every final
    response is told the outcome by `doProxy` alone. One that does is told the last word by the core, unless the
    core goes before it has said it. -/

namespace Drachtio.Proxy
open ProxyCore

def Output.told : Output → Option ApiReply
  | .api a => some a
  | _ => none

theorem plain_told : Plain Output.told := fun x hx => by cases x <;> first | rfl | cases hx

/-- Nothing follows it. -/
def ApiReply.isLast : ApiReply → Bool
  | .nok _ | .done => true
  | .continued _ => false

/-- Only `doProxy` refuses. -/
def ApiReply.isRefusal : ApiReply → Bool
  | .nok _ => true
  | _ => false

/-- The application has been told the last word. -/
def ProxyCore.reported (s : ProxyCore) : Bool := (s.log.filterMap Output.told).any (·.isLast)

/-- The core can be reached by a message or a timer. -/
def ProxyCore.live (s : ProxyCore) : Bool :=
  s.registered || s.all.any fun c =>
    [.timerA, .timerB, .timerC, .timerD, .timerE, .timerF, .timerK, .timerProvisional].any c.armed

/-- A client transaction stays in the vector when a timer of `id` fires. -/
def Remains (s : ProxyCore) (t : TimerName) (id : Nat) : Prop :=
  ∃ d ∈ s.clients, d.isTerminated = false ∧ (d.id = id → t = .timerProvisional)

/-- The step does not empty the vector without the search being looked at: the callbacks of timers D, F and K never
    look at it, and nothing does once the search is over. -/
def Heeded (s : ProxyCore) : Event → Prop
  | .response r => savedChallenge r = none → s.searching = true ∨ ∃ d ∈ s.clients, d.isTerminated = false
  | .timer t id => (s.firing t id).isSome = true →
    match t with
    | .timerA | .timerE => True
    | .timerD | .timerF | .timerK => Remains s t id
    | .timerB | .timerC | .timerProvisional => s.searching = true ∨ Remains s t id
  | _ => True

section
variable {s : ProxyCore} {i : Input} {r : Response} {c d : ClientTransaction} {env : Env}

/-! ### The parts of a step -/

theorem told_acts {x : ClientTransaction × List Output} (hr : Reached s) (ha : Acts s i c x) :
    x.2.filterMap Output.told = [] := by
  refine List.filterMap_eq_nil_iff.mpr fun y hy => ?_
  by_cases hn : y.isNote = true
  · rw [((ha.outputs (hr.classified c ha.mem) y hy).2 hn).1]
    rfl
  · cases y <;> first | rfl | exact absurd rfl hn

theorem told_put {x : ClientTransaction × List Output} (hr : Reached s) (ha : Acts s i c x) {t : ProxyCore} :
    Writes Output.told t (t.put x) [] := by
  have hput := writes_put (f := Output.told) (s := t) (x := x)
  rwa [told_acts hr ha] at hput

theorem told_reportFinal : Writes Output.told s (s.reportFinal r)
    (if s.settings.fullResponse = true ∧ 200 ≤ r.status then
      .continued r :: if (200 ≤ r.status ∧ r.status ≤ 299) ∨
      (s.canceled = true ∧ s.exhaustedAllTargets = true) then [.done] else []
    else []) := by
  unfold ProxyCore.reportFinal
  split
  · refine ⟨_, rfl, ?_⟩
    split
    · rfl
    · rfl
  · exact .refl

theorem told_forwardResponse : Writes Output.told s (s.forwardResponse env r) [] := by
  have hsent : Writes Output.told s (s.forwardResponse env r)
      (if env.sendResponse then (none : Option ApiReply).toList else []) :=
    writes_forwardResponse fun _ => rfl
  simpa using hsent

theorem told_forwardBestResponse (env : Env) : Writes Output.told s (s.forwardBestResponse env)
    (if s.settings.fullResponse = true then [.done] else []) := by
  have last : ∀ {t : ProxyCore}, t.settings = s.settings ∧ Writes Output.told s t [] →
      Writes Output.told s (if t.settings.fullResponse = true then t.emit [.api .done] else t)
        (if s.settings.fullResponse = true then [.done] else []) := fun {t} ⟨hk, ht⟩ => by
    rw [hk]
    split
    · exact ht.trans writes_emit
    · exact ht
  let best := (s.emit [.bestResponse (s.all.map (·.state))]).endSearch
  have hsorted : Writes Output.told s { best with clients := sortBest best.clients } [] :=
    writes_emit.trans (writes_endSearch plain_told)
  unfold ProxyCore.forwardBestResponse
  dsimp only
  apply last
  split
  · exact ⟨rfl, hsorted.trans writes_emit⟩
  · split
    · exact ⟨rfl, hsorted.trans writes_emit⟩
    · exact ⟨by simp, hsorted.trans told_forwardResponse⟩

theorem forwardBestResponse_settings : (s.forwardBestResponse env).settings = s.settings := by
  have last : ∀ {t : ProxyCore}, t.settings = s.settings →
      (if t.settings.fullResponse = true then t.emit [.api .done] else t).settings = s.settings := fun hk => by
    split <;> exact hk
  unfold ProxyCore.forwardBestResponse
  dsimp only
  apply last
  split
  · rfl
  · split
    · rfl
    · exact forwardResponse_settings

theorem told_finishSearch (env : Env) : Writes Output.told s (s.finishSearch env)
    (if s.settings.fullResponse = true ∧ s.searching = true ∧ s.exhaustedAllTargets = true then [.done] else []) := by
  unfold ProxyCore.finishSearch
  by_cases h : s.searching = true ∧ s.exhaustedAllTargets = true
  · simpa [h] using told_forwardBestResponse (s := s) env
  · rw [if_neg h, if_neg fun h' => h h'.2]
    exact .refl

/-- What the application is told in between, if it wants to be told: `doProxy` alone refuses. -/
structure Says (s t : ProxyCore) (u : List ApiReply) : Prop where
  writes : Writes Output.told s t u
  brief : s.settings.fullResponse = false → u = []
  accepted : ∀ a ∈ u, a.isRefusal = false
  settings : t.settings = s.settings

theorem Says.of_quiet {t : ProxyCore} (h : Writes Output.told s t []) (hk : t.settings = s.settings) : Says s t [] :=
  ⟨h, fun _ => rfl, List.forall_mem_nil _, hk⟩

theorem Says.trans {t v : ProxyCore} {u u' : List ApiReply} (h : Says s t u) (h' : Says t v u') : Says s v (u ++ u') where
  writes := h.writes.trans h'.writes
  brief hfull := by rw [h.brief hfull, h'.brief (h.settings ▸ hfull)]; rfl
  accepted a ha := (List.mem_append.mp ha).elim (h.accepted a) (h'.accepted a)
  settings := h'.settings.trans h.settings

theorem says_finishSearch (env : Env) : Says s (s.finishSearch env)
    (if s.settings.fullResponse = true ∧ s.searching = true ∧ s.exhaustedAllTargets = true then [.done] else []) where
  writes := told_finishSearch env
  brief hfull := if_neg fun h => by simp [hfull] at h
  accepted a ha := by
    split at ha
    · rw [List.mem_singleton.mp ha]
      rfl
    · cases ha
  settings := by
    have hchain : Chain s ⟨env, .cancel⟩ s (s.finishSearch env) := Chain.finishSearch .refl
    exact hchain.const.1

theorem says_reportFinal : ∃ u, Says s (s.reportFinal r) u ∧
    (s.settings.fullResponse = true → 200 ≤ r.status ∧ r.status ≤ 299 → .done ∈ u) := by
  refine ⟨_, ⟨told_reportFinal, fun hfull => if_neg fun h => by simp [hfull] at h, fun a ha => ?_, ?_⟩, fun hfull hst => ?_⟩
  · split at ha
    · rcases List.mem_cons.mp ha with rfl | ha
      · rfl
      · split at ha
        · rw [List.mem_singleton.mp ha]
          rfl
        · cases ha
    · cases ha
  · unfold ProxyCore.reportFinal
    split <;> rfl
  · simp [hfull, hst]

/-! ### What stays registered -/

theorem startRequests_exhausted (h : s.clients = []) : (s.startRequests env).1.exhaustedAllTargets = true := by
  unfold ProxyCore.startRequests
  split <;> simp [exhaustedAllTargets, h, launch]

/-- What follows the removal of terminated transactions says the last word, or leaves the core registered. -/
theorem finished (env : Env) (hfull : s.settings.fullResponse = true) (hreg : s.registered = true)
    (h : s.searching = true ∨ ∃ d ∈ s.clients, d.isTerminated = false) {t : ProxyCore} (hk : t.settings = s.settings)
    (hsearch : t.searching = s.searching) (hregt : t.registered = (s.removeTerminated false).registered)
    (hempty : (s.removeTerminated false).clients = [] → t.exhaustedAllTargets = true) :
    ∃ u, Says t (t.finishSearch env) u ∧ ((t.finishSearch env).registered = true ∨ .done ∈ u) := by
  refine ⟨_, says_finishSearch env, ?_⟩
  by_cases hover : t.searching = true ∧ t.exhaustedAllTargets = true
  · rw [if_pos ⟨hk ▸ hfull, hover⟩]
    exact .inr (List.mem_singleton.mpr rfl)
  · left
    unfold ProxyCore.finishSearch
    rw [if_neg hover, hregt]
    rcases h with hs | ⟨d, hd, hstate⟩
    · have hne : (s.removeTerminated false).clients ≠ [] := fun he => hover ⟨hsearch.trans hs, hempty he⟩
      show (s.registered && !(s.removeTerminated false).clients.isEmpty) = true
      simp [hreg, hne]
    · exact registered_removeTerminated hreg hd hstate

/-! ### A response -/

/-- The core that wants every final response says the last word about the answer. -/
theorem says_handOver (hr : Reached s) (he : i.event = .response r) (hc : s.taker r = some c) :
    ∃ u, Says s (s.handOver i.env r c) u ∧
      (s.settings.fullResponse = true → (c.processResponse s.settings i.env r).2 = .answered → .done ∈ u) := by
  have ha : Acts s i c (c.processResponse s.settings i.env r).1 := .response he hc
  have h0 : Says s ((s.emit [.received r]).put (c.processResponse s.settings i.env r).1) [] :=
    .of_quiet ((writes_quiet plain_told (by simp [Output.isPlain, Output.isVerdict])).trans (told_put hr ha)) rfl
  have hforward : ∀ {t : ProxyCore}, Says t (t.forwardResponse i.env r) [] := .of_quiet told_forwardResponse (by simp)
  unfold ProxyCore.handOver
  cases hverdict : (c.processResponse s.settings i.env r).2 with
  | discard => exact ⟨[], h0, by simp⟩
  | forward => exact ⟨[], h0.trans hforward, by simp⟩
  | answered =>
    have h1 : Says s (((s.emit [.received r]).put (c.processResponse s.settings i.env r).1).notifyForwarded200OK i.env) [] :=
      h0.trans (.of_quiet (((writes_endSearch plain_told).trans (writes_cancelOutstandingRequests plain_told)).trans
        writes_removeTerminated) rfl)
    obtain ⟨u, hu, hdone⟩ := says_reportFinal (s := ((s.emit [.received r]).put
      (c.processResponse s.settings i.env r).1).notifyForwarded200OK i.env) (r := r)
    refine ⟨_, (h1.trans hu).trans hforward, fun hfull _ => ?_⟩
    rw [List.append_nil, List.nil_append]
    exact hdone hfull (verdict_answered hverdict)
  | rejected =>
    dsimp only [ProxyCore.conclude]
    split
    · obtain ⟨u, hu, -⟩ := says_reportFinal (s := (s.emit [.received r]).put (c.processResponse s.settings i.env r).1)
        (r := r)
      exact ⟨_, h0.trans hu, by simp⟩
    · have hadd : ∀ {t : ProxyCore} {added : List ClientTransaction} {target : String},
          Says t (t.addClientTransactions added target) [] := fun {t added target} => by
        refine .of_quiet (writes_addClientTransactions plain_told) ?_
        unfold addClientTransactions
        split <;> rfl
      obtain ⟨u, hu, -⟩ := says_reportFinal (s := ((s.emit [.received r]).put
        (c.processResponse s.settings i.env r).1).addClientTransactions
          (newClients i.env ((s.emit [.received r]).put (c.processResponse s.settings i.env r).1).nextId
            (redirects ((s.emit [.received r]).put (c.processResponse s.settings i.env r).1).settings r)) c.target) (r := r)
      exact ⟨_, (h0.trans hadd).trans hu, by simp⟩

theorem registered_handOver (hreg : s.registered = true) (hv : (c.processResponse s.settings env r).2 ≠ .answered) :
    (s.handOver env r c).registered = true := by
  unfold ProxyCore.handOver
  cases hverdict : (c.processResponse s.settings env r).2 with
  | discard => exact hreg
  | forward => simpa [conclude] using hreg
  | answered => exact absurd hverdict hv
  | rejected =>
    dsimp only [ProxyCore.conclude]
    split <;> simpa using hreg

/-- A response that is no answer terminates nobody. -/
theorem processResponse_not_terminated {k : Settings} (hm : c.method = r.method) (hs : c.isTerminated = false)
    (hv : (c.processResponse k env r).2 ≠ .answered) : (c.processResponse k env r).1.1.isTerminated = false := by
  have hne : c.state ≠ .terminated := by simpa [ClientTransaction.isTerminated] using hs
  suffices h : (c.processResponse k env r).1.1.state ≠ .terminated by simpa [ClientTransaction.isTerminated] using h
  rw [ClientTransaction.processResponse_state hm]
  split
  · simp
  · rename_i hlate
    split
    · exact hne
    · rename_i hrep
      rw [ClientTransaction.processNewResponse_state]
      split
      · simp
      · split
        · rename_i hst
          refine absurd ?_ hv
          have hnew : (c.processResponse k env r).2 = (c.processNewResponse k r).2 := by
            have hterm : ¬c.state = .terminated := hne
            have hdone : ¬(c.state = .completed ∧ 200 ≤ r.status) := fun h => hrep (.inr h)
            simp [ClientTransaction.processResponse, hterm, hlate, hm, hdone]
          rw [hnew, ClientTransaction.processNewResponse_verdict, if_neg (by omega), if_pos hst]
        · split
          · simp
          · exact hne

theorem remains_handOver (hr : Reached s) (hc : s.taker r = some c) (hv : (c.processResponse s.settings env r).2 ≠ .answered)
    (h : ∃ d ∈ s.clients, d.isTerminated = false) : ∃ d ∈ (s.handOver env r c).clients, d.isTerminated = false := by
  obtain ⟨hmem, -, hm⟩ := taker_spec hr hc
  obtain ⟨d, hd, hs⟩ := h
  by_cases hid : d.id = c.id
  · obtain rfl := hr.keyed.eq_of_id (List.mem_append_left _ hd) (List.mem_append_left _ hmem) hid
    exact ⟨_, mem_clients_handOver_self hmem hv, processResponse_not_terminated hm hs hv⟩
  · exact ⟨d, mem_clients_handOver hd hid hv, hs⟩

theorem says_followUp (env : Env) (r : Response) (target : String) :
    ∃ u, Says s (s.followUp env r target) u ∧ (s.settings.fullResponse = true → s.registered = true →
      (savedChallenge r = none → s.searching = true ∨ ∃ d ∈ s.clients, d.isTerminated = false) →
        (s.followUp env r target).registered = true ∨ .done ∈ u) := by
  unfold ProxyCore.followUp
  split
  · rename_i realm nonce _
    have hpruned : Says s ((s.emit [.challenge realm nonce target]).removeTerminated true) [] :=
      .of_quiet ((writes_quiet plain_told (by simp [Output.isPlain, Output.isVerdict])).trans writes_removeTerminated) rfl
    have hbest : ∀ {t : ProxyCore}, Says t (t.forwardBestResponse env)
      (if t.settings.fullResponse = true then [.done] else []) :=
      fun {t} => by
        refine ⟨told_forwardBestResponse env, fun hfull => by simp [hfull], fun a ha => ?_, forwardBestResponse_settings⟩
        split at ha
        · rw [List.mem_singleton.mp ha]
          rfl
        · cases ha
    exact ⟨_, hpruned.trans hbest, fun hfull _ _ => .inr (by simp [hfull])⟩
  · rename_i hsaved
    have hk : (s.relaunch env r).settings = s.settings := by
      unfold ProxyCore.relaunch ProxyCore.startRequests
      split
      · split <;> rfl
      · rfl
    have hrelaunch : Says s (s.relaunch env r) [] := .of_quiet (writes_relaunch plain_told) hk
    have hreg : (s.relaunch env r).registered = (s.removeTerminated false).registered := by
      unfold ProxyCore.relaunch
      split
      · exact startRequests_registered
      · rfl
    have hempty : (s.removeTerminated false).clients = [] → (s.relaunch env r).exhaustedAllTargets = true := fun hnil => by
      unfold ProxyCore.relaunch
      split
      · exact startRequests_exhausted hnil
      · simp [exhaustedAllTargets, hnil]
    by_cases hkept : s.settings.fullResponse = true ∧ s.registered = true ∧
        (s.searching = true ∨ ∃ d ∈ s.clients, d.isTerminated = false)
    · obtain ⟨u, hu, hend⟩ := finished env hkept.1 hkept.2.1 hkept.2.2 hk relaunch_searching hreg hempty
      exact ⟨u, hrelaunch.trans hu, fun _ _ _ => hend⟩
    · exact ⟨_, hrelaunch.trans (says_finishSearch env), fun hfull hr h => absurd ⟨hfull, hr, h hsaved⟩ hkept⟩

/-! ### The step -/

/-- What the step tells the application. A core that wants every final response and is registered stays so, or says
    the last word. -/
def Speaks (s : ProxyCore) (e : Event) (t : ProxyCore) : Prop :=
  ∃ u, Says s t u ∧
    (s.settings.fullResponse = true → s.registered = true → Heeded s e → t.registered = true ∨ .done ∈ u)

theorem Speaks.of_quiet {e : Event} {t : ProxyCore} (h : Writes Output.told s t []) (hk : t.settings = s.settings)
    (hreg : t.registered = s.registered) : Speaks s e t :=
  ⟨[], .of_quiet h hk, fun _ hr _ => .inl (hreg.trans hr)⟩

theorem speaks_response (hr : Reached s) (he : i.event = .response r) : Speaks s i.event (s.step i) := by
  by_cases hm : r.method = s.request.method
  · cases hc : s.taker r with
    | none =>
      have h0 : Says s (s.emit [.received r]) [] :=
        .of_quiet (writes_quiet plain_told (by simp [Output.isPlain, Output.isVerdict])) rfl
      have hstateless : ∀ {t : ProxyCore}, Says t (t.emit [.forwardStateless r]) [] := .of_quiet writes_emit rfl
      rw [step_untaken he hm hc]
      split
      · obtain ⟨u, hu, hlast⟩ := says_followUp (s := s.emit [.received r]) i.env r ""
        refine ⟨_, (h0.trans hu).trans hstateless, fun hfull hreg hheed => ?_⟩
        rw [he] at hheed
        rw [List.append_nil, List.nil_append]
        exact hlast hfull hreg hheed
      · exact .of_quiet (h0.trans hstateless).writes rfl rfl
    | some c =>
      obtain ⟨u, hu, hanswer⟩ := says_handOver hr he hc
      obtain ⟨v, hv, hlast⟩ := says_followUp (s := s.handOver i.env r c) i.env r c.target
      rw [step_taken he hc]
      refine ⟨u ++ v, hu.trans hv, fun hfull hreg hheed => ?_⟩
      by_cases hans : (c.processResponse s.settings i.env r).2 = .answered
      · exact .inr (List.mem_append_left _ (hanswer hfull hans))
      · rw [he] at hheed
        refine (hlast (hu.settings ▸ hfull) (registered_handOver hreg hans) fun hsaved => ?_).imp_right
          (List.mem_append_right _)
        refine (hheed hsaved).imp (fun hs => ?_) (remains_handOver hr hc hans)
        rw [handOver_searching, hs]
        simp [hans]
  · rw [step_foreign he hm]
    exact .of_quiet .refl rfl rfl

/-- The vector is not emptied by the timer. -/
theorem remains_put (env : Env) {t : TimerName} {id : Nat} (hc : s.firing t id = some c) (h : Remains s t id) {v : ProxyCore}
    (hv : v.clients = s.clients) :
    ∃ d ∈ (v.put (c.timerFires s.settings env s.request t)).clients, d.isTerminated = false := by
  obtain ⟨-, hid, -⟩ := firing_spec hc
  obtain ⟨d, hd, hs, hself⟩ := h
  rw [← hv] at hd
  have hkey : (c.timerFires s.settings env s.request t).1.id = c.id := by simp
  by_cases hdc : d.id = c.id
  · obtain rfl := hself (hdc.trans hid)
    refine ⟨_, mem_clients_put_self hd (hkey.trans hdc.symm), ?_⟩
    have hstate : (c.timerFires s.settings env s.request .timerProvisional).1.state = .completed := by
      simp [ClientTransaction.timerFires]
    simp [ClientTransaction.isTerminated, hstate]
  · exact ⟨d, mem_clients_put hd (by rwa [hkey]), hs⟩

/-- The callbacks that look at the search once the terminated transactions are removed -/
theorem speaks_finishSearch {e : Event} {v t : ProxyCore} (hv : v.settings = s.settings ∧ v.registered = s.registered)
    (ht : Writes Output.told s t []) (hk : t.settings = v.settings) (hsearch : t.searching = v.searching)
    (hregt : t.registered = (v.removeTerminated false).registered)
    (hempty : (v.removeTerminated false).clients = [] → t.exhaustedAllTargets = true)
    (hheed : Heeded s e → v.searching = true ∨ ∃ d ∈ v.clients, d.isTerminated = false) :
    Speaks s e (t.finishSearch env) := by
  have h0 : Says s t [] := .of_quiet ht (hk.trans hv.1)
  by_cases hkept : s.settings.fullResponse = true ∧ s.registered = true ∧ Heeded s e
  · obtain ⟨u, hu, hend⟩ := finished env (hv.1 ▸ hkept.1) (hv.2.trans hkept.2.1) (hheed hkept.2.2) hk hsearch hregt hempty
    exact ⟨u, h0.trans hu, fun _ _ _ => hend⟩
  · exact ⟨_, h0.trans (says_finishSearch env), fun hfull hreg hh => absurd ⟨hfull, hreg, hh⟩ hkept⟩

theorem speaks_timer {t : TimerName} {id : Nat} (hr : Reached s) (he : i.event = .timer t id) :
    Speaks s i.event (s.step i) := by
  cases hc : s.firing t id with
  | none =>
    rw [step_unfired he hc]
    exact .of_quiet .refl rfl rfl
  | some c =>
    obtain ⟨hfind, harm⟩ := firing_eq_some.mp hc
    obtain ⟨-, rfl, -⟩ := firing_spec hc
    have ha : Acts s i c (c.timerFires s.settings i.env s.request t) := .timer he hfind harm
    have hfired : (s.firing t c.id).isSome = true := by simp [hc]
    have h0 : Writes Output.told s ((s.emit [.timerFired t c.id]).put (c.timerFires s.settings i.env s.request t)) [] :=
      (writes_quiet plain_told (by simp [Output.isPlain, Output.isVerdict])).trans (told_put hr ha)
    let fired := (s.emit [.timerFired t c.id]).put (c.timerFires s.settings i.env s.request t)
    -- The callbacks that only remove what is terminated
    have prunes : (Heeded s (.timer t c.id) → Remains s t c.id) → Speaks s (.timer t c.id)
        (((s.emit [.timerFired t c.id]).put (c.timerFires s.settings i.env s.request t)).removeTerminated false) := by
      intro hrem
      refine ⟨[], .of_quiet (h0.trans writes_removeTerminated) rfl, fun _ hreg hheed => .inl ?_⟩
      obtain ⟨d, hd, hs⟩ := remains_put i.env hc (hrem hheed) (v := s.emit [.timerFired t c.id]) rfl
      exact registered_removeTerminated hreg hd hs
    rw [step_fired he hc, he]
    cases t with
    | timerA => exact .of_quiet h0 rfl rfl
    | timerE => exact .of_quiet h0 rfl rfl
    | timerD => exact prunes fun hheed => hheed hfired
    | timerF => exact prunes fun hheed => hheed hfired
    | timerK => exact prunes fun hheed => hheed hfired
    | timerB =>
      refine speaks_finishSearch (v := fired) ⟨rfl, rfl⟩ (h0.trans writes_removeTerminated) rfl rfl rfl
        (fun hnil => ?_) fun hheed => (hheed hfired).imp_right fun hrem => remains_put i.env hc hrem rfl
      exact exhausted_eq_true.mpr fun d hd => absurd (hnil ▸ hd) List.not_mem_nil
    | timerC =>
      refine speaks_finishSearch (v := fired) ⟨rfl, rfl⟩ (h0.trans writes_removeTerminated) rfl rfl rfl
        (fun hnil => ?_) fun hheed => (hheed hfired).imp_right fun hrem => remains_put i.env hc hrem rfl
      exact exhausted_eq_true.mpr fun d hd => absurd (hnil ▸ hd) List.not_mem_nil
    | timerProvisional =>
      let marked := ({ s.emit [.timerFired .timerProvisional c.id] with canceled := true } : ProxyCore).put
        (c.timerFires s.settings i.env s.request .timerProvisional)
      have hmark : Writes Output.told s marked [] := h0
      refine speaks_finishSearch (v := marked) ⟨rfl, rfl⟩
        ((hmark.trans writes_removeTerminated).trans (writes_startRequests plain_told)) ?_
        startRequests_searching startRequests_registered startRequests_exhausted fun hheed =>
          (hheed hfired).imp_right fun hrem => remains_put i.env hc hrem rfl
      unfold ProxyCore.startRequests
      split <;> rfl

/-- Every step. -/
theorem step_speaks (hr : Reached s) (i : Input) : Speaks s i.event (s.step i) := by
  cases he : i.event with
  | response r => exact he ▸ speaks_response hr he
  | timer t id => exact he ▸ speaks_timer hr he
  | cancel =>
    unfold ProxyCore.step
    rw [he]
    dsimp only
    split
    · have hok : Writes Output.told s ((({ s with canceled := true, server.canceled := true } : ProxyCore).emit
          [.okToCancel]).generateResponse 487) [] := ⟨[.okToCancel, .generateResponse 487], by simp, rfl⟩
      exact .of_quiet (hok.trans (writes_cancelOutstandingRequests plain_told)) rfl rfl
    · exact .of_quiet .refl rfl rfl
  | info req =>
    unfold ProxyCore.step
    rw [he]
    dsimp only [ProxyCore.forwardRequest]
    split
    · split
      · exact .of_quiet .refl rfl rfl
      · rename_i c hc
        exact .of_quiet (told_put hr (.info he hc)) rfl rfl
    · exact .of_quiet .refl rfl rfl
  | prack rack =>
    unfold ProxyCore.step
    rw [he]
    dsimp only [ProxyCore.forwardPrack]
    split
    · split
      · exact .of_quiet .refl rfl rfl
      · rename_i c hc
        exact .of_quiet (told_put hr (.prack he hc)) rfl rfl
    · exact .of_quiet .refl rfl rfl

theorem live_eq_false : s.live = false ↔ s.registered = false ∧ ∀ c ∈ s.all, ∀ t, c.armed t = false := by
  unfold ProxyCore.live
  rw [Bool.or_eq_false_iff, List.any_eq_false]
  refine and_congr_right fun _ => ⟨fun h c hc t => ?_, fun h c hc => ?_⟩
  · have hnone := h c hc
    rw [List.any_eq_true] at hnone
    by_contra ht
    exact hnone ⟨t, by cases t <;> decide, by simpa using ht⟩
  · rw [List.any_eq_true]
    rintro ⟨t, -, ht⟩
    rw [h c hc t] at ht
    cases ht

/-- Nothing reaches a core that is gone. -/
theorem step_dead (h : s.live = false) (i : Input) : Writes Output.told s (s.step i) [] ∧ (s.step i).live = false := by
  obtain ⟨hreg, harm⟩ := live_eq_false.mp h
  cases he : i.event with
  | response r =>
    by_cases hm : r.method = s.request.method
    · have hc : s.taker r = none := if_neg fun ht => by simp [hreg] at ht
      rw [step_untaken he hm hc, if_neg fun ht => by simp [hreg] at ht]
      exact ⟨⟨[.received r, .forwardStateless r], by simp, rfl⟩, h⟩
    · rw [step_foreign he hm]
      exact ⟨.refl, h⟩
  | timer t id =>
    have hc : s.firing t id = none := Option.eq_none_iff_forall_ne_some.mpr fun c hc => by
      obtain ⟨hmem, -, ht⟩ := firing_spec hc
      rw [harm c hmem t] at ht
      cases ht
    rw [step_unfired he hc]
    exact ⟨.refl, h⟩
  | cancel =>
    unfold ProxyCore.step
    simp only [he, hreg, Bool.false_eq_true, false_and, if_false]
    exact ⟨.refl, h⟩
  | info req =>
    unfold ProxyCore.step
    simp only [he, hreg, Bool.false_eq_true, if_false]
    exact ⟨.refl, h⟩
  | prack rack =>
    unfold ProxyCore.step
    simp only [he, hreg, Bool.false_eq_true, if_false]
    exact ⟨.refl, h⟩

/-- What `doProxy` tells: the last word, unless the application wants every final response, which is told nothing yet and
    has a core that is registered. -/
theorem doProxy_told (k : Settings) (env : Env) (req : Request) (destinations : List String) :
    (∃ a, (a = .done ∨ a = .nok "Rejected with 483 Too Many Hops due to Max-Forwards value of 0" ∨
        a = .nok "error proxying request to ") ∧ (doProxy k env req destinations).log.filterMap Output.told = [a]) ∨
    (k.fullResponse = true ∧ (doProxy k env req destinations).registered = true ∧
      (doProxy k env req destinations).log.filterMap Output.told = []) := by
  obtain ⟨w, hlog, hw⟩ : Writes Output.told (addProxy k env req destinations)
    ((addProxy k env req destinations).startRequests env).1 [] :=
    writes_startRequests plain_told
  have hstart : ((addProxy k env req destinations).startRequests env).1.log.filterMap Output.told = [] := by
    rw [hlog]
    exact hw
  unfold doProxy
  dsimp only
  split
  · exact .inl ⟨_, .inr (.inl rfl), rfl⟩
  · split
    · refine .inl ⟨_, .inr (.inr rfl), ?_⟩
      show (((addProxy k env req destinations).startRequests env).1.log ++ _).filterMap Output.told = _
      rw [List.filterMap_append, hstart]
      rfl
    · split
      · rename_i hfull
        exact .inr ⟨hfull, startRequests_registered, hstart⟩
      · refine .inl ⟨_, .inl rfl, ?_⟩
        rw [emit_log, List.filterMap_append, hstart]
        rfl

end

end Drachtio.Proxy
