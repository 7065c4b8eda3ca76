import Drachtio.Theorems.Proxy.Writes

/-! What the caller gets. The server transaction should answer the original request once: one final response, and
    after it nothing but 2xx. Timer C and a CANCEL answer without asking whether an answer was sent, and provisional
    responses and saved challenges go upstream at any time. -/

namespace Drachtio.Proxy
open ProxyCore

/-- The status of a response that goes upstream for the original request. -/
def Output.upstreamStatus : Output → Option Nat
  | .forwardResponse r _ => some r.status
  | .generateResponse status | .reply status => some status
  | _ => none

def upstream (l : List Output) : List Nat := l.filterMap Output.upstreamStatus

/-- A final response was sent. -/
def FinalSent (l : List Output) : Prop := ∃ n ∈ upstream l, 200 ≤ n

instance (l : List Output) : Decidable (FinalSent l) := inferInstanceAs (Decidable (∃ n ∈ upstream l, _))

/-- After a final response only 2xx follow, and at most one final response is not 2xx. -/
structure OneFinal (s : ProxyCore) : Prop where
  order : (upstream s.log).Pairwise fun m n => 200 ≤ m → 200 ≤ n ∧ n ≤ 299
  single : ((upstream s.log).filter (300 ≤ ·)).length ≤ 1

/-- Some transaction other than that of the timer is being called. -/
def OthersCalled (s : ProxyCore) (id : Nat) : Prop := ∃ d ∈ s.clients, d.id ≠ id ∧ d.isCallingOrProceeding = true

instance (s : ProxyCore) (id : Nat) : Decidable (OthersCalled s id) := inferInstanceAs (Decidable (∃ d ∈ s.clients, _))

/-- When timer C expires no final response was sent and the search goes on elsewhere, or is over; a CANCEL comes before
    a final response; and after one nothing comes that would end the search, no new provisional response and no
    challenge that is saved. -/
def AnswersOnce (s : ProxyCore) : Event → Prop
  | .timer .timerC id => (s.firing .timerC id).isSome = true →
      ¬FinalSent s.log ∧ (s.searching = true → OthersCalled s id)
  | .timer .timerB id => (s.firing .timerB id).isSome = true → FinalSent s.log → s.searching = true → OthersCalled s id
  | .timer .timerProvisional id => (s.firing .timerProvisional id).isSome = true → FinalSent s.log →
      s.searching = true → OthersCalled s id
  | .cancel => s.registered = true ∧ s.request.method = .invite → ¬FinalSent s.log
  | .response r => s.registered = true ∧ r.method = s.request.method ∧ r.method ≠ .prack → FinalSent s.log →
      (∀ c ∈ s.taker r, c.state ≠ .terminated → c.isLate r = false → ¬(101 ≤ r.status ∧ r.status ≤ 199)) ∧
      savedChallenge r = none ∧
      (s.searching = true → (∃ d ∈ s.clients, d.isCallingOrProceeding = true ∧ s.taker r ≠ some d) ∨
        ∃ c ∈ s.taker r, c.isCallingOrProceeding = true ∧ r.status < 300)
  | _ => True

instance (s : ProxyCore) : ∀ e, Decidable (AnswersOnce s e)
  | .response r => inferInstanceAs (Decidable (_ → _ → (∀ c ∈ s.taker r, _) ∧ _ ∧
      (_ → (∃ d ∈ s.clients, _) ∨ ∃ c ∈ s.taker r, _)))
  | .timer .timerC _ => inferInstanceAs (Decidable (_ → ¬_ ∧ (_ → _)))
  | .timer .timerB _ | .timer .timerProvisional _ => inferInstanceAs (Decidable (_ → _ → _ → _))
  | .timer .timerA _ | .timer .timerD _ | .timer .timerE _ | .timer .timerF _ | .timer .timerK _ => isTrue trivial
  | .cancel => inferInstanceAs (Decidable (_ → ¬_))
  | .info _ | .prack _ => isTrue trivial

/-! ### What an operation sends -/

/-- `t` follows `s` and sent `u` upstream. -/
abbrev Sends (s t : ProxyCore) (u : List Nat) : Prop := Writes Output.upstreamStatus s t u

theorem picks_upstream : Picks Output.upstreamStatus := fun x hx => by cases x <;> first | rfl | cases hx

section
variable {s t : ProxyCore} {u : List Nat} {env : Env} {r : Response}

theorem sends_forwardResponse : Sends s (s.forwardResponse env r) (if env.sendResponse then [r.status] else []) :=
  writes_forwardResponse (v := some r.status) fun _ => rfl

/-- At most one final response, and not a 2xx. -/
def OneFailure (u : List Nat) : Prop := u = [] ∨ ∃ n, u = [n] ∧ 300 ≤ n

theorem sends_forwardBestResponse (hf : ∀ c ∈ s.all, ∀ r, c.msgFinal = some r → 300 ≤ r.status) :
    ∃ u, Sends s (s.forwardBestResponse env) u ∧ OneFailure u := by
  have done : ∀ {t : ProxyCore}, (∃ u, Sends s t u ∧ OneFailure u) →
      ∃ u, Sends s (if t.settings.fullResponse then t.emit [.api .done] else t) u ∧ OneFailure u := fun ⟨u, ht, hone⟩ => by
    split
    · exact ⟨u, ht.then writes_emit, hone⟩
    · exact ⟨u, ht, hone⟩
  -- The selection itself writes nothing for the caller.
  have hsel : Sends s { ((s.emit [.bestResponse (s.all.map (·.state))]).endSearch) with clients := sortBest s.clients } [] :=
    ⟨[.bestResponse (s.all.map (·.state)), .searchOver], by simp, rfl⟩
  unfold ProxyCore.forwardBestResponse
  dsimp only
  apply done
  split
  · exact ⟨[408], hsel.trans writes_emit, Or.inr ⟨408, rfl, by decide⟩⟩
  · rename_i c hc
    split
    · exact ⟨[], hsel.trans writes_emit, Or.inl rfl⟩
    · rename_i r hr
      have hmem := (sortBest_perm s.clients).mem_iff.mp (List.mem_of_mem_head? (Option.filter_eq_some_iff.mp hc).1)
      have hst := hf c (List.mem_append_left _ hmem) r hr
      refine ⟨_, hsel.trans sends_forwardResponse, ?_⟩
      split
      · exact Or.inr ⟨r.status, rfl, hst⟩
      · exact Or.inl rfl

theorem sends_finishSearch (hf : ∀ c ∈ s.all, ∀ r, c.msgFinal = some r → 300 ≤ r.status) :
    ∃ u, Sends s (s.finishSearch env) u ∧ OneFailure u ∧
      (u ≠ [] → s.searching = true ∧ s.exhaustedAllTargets = true) := by
  unfold ProxyCore.finishSearch
  split
  · rename_i hs
    obtain ⟨u, hu, hone⟩ : ∃ u, Sends s (s.forwardBestResponse env) u ∧ OneFailure u := sends_forwardBestResponse hf
    exact ⟨u, hu, hone, fun _ => hs⟩
  · exact ⟨[], .refl, Or.inl rfl, fun h => absurd rfl h⟩

theorem sends_followUp {target : String} (hf : ∀ c ∈ s.all, ∀ r, c.msgFinal = some r → 300 ≤ r.status)
    (hf' : ∀ c ∈ (s.relaunch env r).all, ∀ r, c.msgFinal = some r → 300 ≤ r.status) :
    ∃ u, Sends s (s.followUp env r target) u ∧ OneFailure u ∧ (u ≠ [] → (savedChallenge r).isSome = true ∨
      (s.relaunch env r).searching = true ∧ (s.relaunch env r).exhaustedAllTargets = true) := by
  unfold ProxyCore.followUp
  split
  · rename_i realm nonce hch
    have hf'' : ∀ c ∈ ((s.emit [.challenge realm nonce target]).removeTerminated true).all, ∀ r, c.msgFinal = some r →
        300 ≤ r.status := fun c hc => hf c (mem_removeTerminated hc)
    obtain ⟨u, hu, hone⟩ : ∃ u, Sends _ (((s.emit [.challenge realm nonce target]).removeTerminated true).forwardBestResponse
        env) u ∧ OneFailure u := sends_forwardBestResponse hf''
    have hpre : Sends s ((s.emit [.challenge realm nonce target]).removeTerminated true) [] :=
      (writes_emit (w := [.challenge realm nonce target])).trans writes_removeTerminated
    exact ⟨u, hpre.trans hu, hone, fun _ => Or.inl (by simp [hch])⟩
  · obtain ⟨u, hu, hone, hwhen⟩ : ∃ u, Sends _ ((s.relaunch env r).finishSearch env) u ∧ OneFailure u ∧ (u ≠ [] →
        (s.relaunch env r).searching = true ∧ (s.relaunch env r).exhaustedAllTargets = true) := sends_finishSearch hf'
    exact ⟨u, (writes_relaunch picks_upstream.plain).trans hu, hone, fun hne => Or.inr (hwhen hne)⟩

/-! ### What a step sends -/

/-- At most one response, and a 2xx if there was a final one before. -/
def Fine (l : List Output) (u : List Nat) : Prop := u = [] ∨ ∃ n, u = [n] ∧ (FinalSent l → 200 ≤ n ∧ n ≤ 299)

variable {i : Input} {c d : ClientTransaction}

theorem OneFailure.fine {l : List Output} (h : OneFailure u) (hl : FinalSent l → u = []) : Fine l u := by
  rcases h with rfl | ⟨n, rfl, -⟩
  · exact Or.inl rfl
  · exact Or.inr ⟨n, rfl, fun hf => by cases hl hf⟩

/-- The follow-up of a response that a transaction takes selects a best response only if the search went on with
    nobody being called, or the response carries a challenge. -/
theorem taken_quiet (hr : Reached s) (hc : s.taker r = some c) (hch : savedChallenge r = none)
    (hs : s.searching = true → (c.processResponse s.settings env r).2 ≠ .answered →
      (∃ d ∈ s.clients, d.isCallingOrProceeding = true ∧ d ≠ c) ∨
        (c.processResponse s.settings env r).1.1.isCallingOrProceeding = true) :
    ¬((savedChallenge r).isSome = true ∨ ((s.handOver env r c).relaunch env r).searching = true ∧
      ((s.handOver env r c).relaunch env r).exhaustedAllTargets = true) := by
  have hmem := (taker_spec hr hc).1
  rintro (hsome | ⟨hsearch, hex⟩)
  · rw [hch] at hsome
    cases hsome
  · rw [relaunch_searching, handOver_searching, Bool.and_eq_true, bne_iff_ne] at hsearch
    have active : ∀ d ∈ (s.handOver env r c).clients, d.isCallingOrProceeding = true → False := fun d hd ha => by
      have := exhausted_eq_true.mp hex d (mem_clients_relaunch hd ha)
      rw [ha] at this
      cases this
    rcases hs hsearch.1 hsearch.2 with ⟨d, hd, ha, hne⟩ | ha
    · refine active d (mem_clients_handOver hd (fun hid => hne ?_) hsearch.2) ha
      exact hr.keyed.eq_of_id (List.mem_append_left _ hd) (List.mem_append_left _ hmem) hid
    · exact active _ (mem_clients_handOver_self hmem hsearch.2) ha

/-- A response that ends nothing leaves its transaction being called. -/
theorem active_after {k : Settings} (ha : c.isCallingOrProceeding = true) (hm : c.method = r.method) (hst : r.status < 300)
    (hv : (c.processResponse k env r).2 ≠ .answered) : (c.processResponse k env r).1.1.isCallingOrProceeding = true := by
  rw [processResponse_active ha hm] at hv ⊢
  rw [ClientTransaction.processNewResponse_verdict] at hv
  rw [ClientTransaction.isCallingOrProceeding, ClientTransaction.processNewResponse_state]
  by_cases h1 : 100 ≤ r.status ∧ r.status ≤ 199
  · rw [if_pos h1]
    rfl
  · by_cases h2 : 200 ≤ r.status ∧ r.status ≤ 299
    · rw [if_neg (by omega), if_pos h2] at hv
      exact absurd rfl hv
    · rw [if_neg h1, if_neg h2, if_neg (by omega)]
      exact ha

theorem not_challenge (h : r.status < 300) : savedChallenge r = none := by
  unfold savedChallenge
  rw [if_neg (by omega)]

theorem fine_taken (hr : Reached s) (he : i.event = .response r) (hc : s.taker r = some c) (h : AnswersOnce s i.event) :
    ∃ u, Sends s (s.step i) u ∧ Fine s.log u := by
  rw [he] at h
  obtain ⟨hreg, hmeth, hprack, -⟩ := taker_eq_some.mp hc
  obtain ⟨hmem, -, hm⟩ := taker_spec hr hc
  have hchain := chain_handOver he hc
  have hf : ∀ t, Chain s i s t → ∀ c ∈ t.all, ∀ r, c.msgFinal = some r → 300 ≤ r.status := fun t ht =>
    (closed_keepsFailure.chain hr.failures ht).clients
  obtain ⟨u, hu, hone, hwhen⟩ := sends_followUp (hf _ hchain) (hf _ (chain_relaunch hchain))
  have hsends := (writes_handOver picks_upstream hr he hc fun _ => rfl).trans hu
  rw [← step_taken he hc] at hsends
  have quiet : savedChallenge r = none → (s.searching = true → (c.processResponse s.settings i.env r).2 ≠ .answered →
      (∃ d ∈ s.clients, d.isCallingOrProceeding = true ∧ d ≠ c) ∨
        (c.processResponse s.settings i.env r).1.1.isCallingOrProceeding = true) → u = [] := fun hch hs => by
    by_contra hne
    exact taken_quiet hr hc hch hs (hwhen hne)
  -- A response that is not forwarded at once leaves it to the follow-up.
  have later : (c.processResponse s.settings i.env r).2 ≠ .forward → (c.processResponse s.settings i.env r).2 ≠ .answered →
      ∃ u, Sends s (s.step i) u ∧ Fine s.log u := fun hv₁ hv₂ => by
    rw [if_neg (by simp [hv₁, hv₂]), List.nil_append] at hsends
    refine ⟨u, hsends, hone.fine fun hfin => ?_⟩
    obtain ⟨-, hch, hs⟩ := h ⟨hreg, hmeth, hprack⟩ hfin
    refine quiet hch fun hsearch _ => ?_
    rcases hs hsearch with ⟨d, hd, ha, hne⟩ | ⟨d, hd, ha, hst⟩
    · refine Or.inl ⟨d, hd, ha, fun e => hne ?_⟩
      rw [hc, e]
    · cases hc.symm.trans hd
      exact Or.inr (active_after ha hm hst hv₂)
  cases hv : (c.processResponse s.settings i.env r).2 with
  | forward =>
    obtain ⟨hterm, hlate, hst⟩ := verdict_forward hv
    have hnil : u = [] := quiet (not_challenge (by omega)) fun _ _ => Or.inr (by
      obtain ⟨-, -, -, hnew⟩ := ClientTransaction.processResponse_taken (by rw [hv]; simp)
      rw [hnew, ClientTransaction.isCallingOrProceeding, ClientTransaction.processNewResponse_state, if_pos (by omega)]
      rfl)
    refine ⟨_, hsends, ?_⟩
    rw [hnil, List.append_nil]
    split
    · exact Or.inr ⟨r.status, rfl, fun hfin => absurd hst ((h ⟨hreg, hmeth, hprack⟩ hfin).1 c hc hterm hlate)⟩
    · exact Or.inl rfl
  | answered =>
    have hst := verdict_answered hv
    have hnil : u = [] := quiet (not_challenge (by omega)) fun _ hne => absurd hv hne
    refine ⟨_, hsends, ?_⟩
    rw [hnil, List.append_nil]
    split
    · exact Or.inr ⟨r.status, rfl, fun _ => hst⟩
    · exact Or.inl rfl
  | discard => exact later (by simp [hv]) (by simp [hv])
  | rejected => exact later (by simp [hv]) (by simp [hv])

theorem fine_untaken (hr : Reached s) (he : i.event = .response r) (hc : s.taker r = none) (h : AnswersOnce s i.event) :
    ∃ u, Sends s (s.step i) u ∧ Fine s.log u := by
  by_cases hm : r.method = s.request.method
  · rw [step_untaken he hm hc]
    have h0 : Sends s (s.emit [.received r]) [] := writes_emit
    have stateless : ∀ {t : ProxyCore} {u : List Nat}, Sends s t u → Sends s (t.emit [.forwardStateless r]) u :=
      fun ht => ht.then writes_emit
    split
    · rename_i hreg
      have hchain : Chain s i s (s.emit [.received r]) := .single (.note _ rfl rfl rfl)
      have hf : ∀ t, Chain s i s t → ∀ c ∈ t.all, ∀ r, c.msgFinal = some r → 300 ≤ r.status := fun t ht =>
        (closed_keepsFailure.chain hr.failures ht).clients
      obtain ⟨u, hu, hone, hwhen⟩ := sends_followUp (hf _ hchain) (hf _ (chain_relaunch hchain))
      refine ⟨u, stateless (h0.trans hu), hone.fine fun hfin => ?_⟩
      rw [he] at h
      obtain ⟨-, hch, hs⟩ := h ⟨hreg.1, hm, hreg.2⟩ hfin
      by_contra hne
      rcases hwhen hne with hsome | ⟨hsearch, hex⟩
      · simp [hch] at hsome
      · rw [relaunch_searching, emit_searching] at hsearch
        rcases hs hsearch with ⟨d, hd, ha, -⟩ | ⟨d, hd, -⟩
        · have hd' : d ∈ (s.emit [.received r]).clients := hd
          have := exhausted_eq_true.mp hex d (mem_clients_relaunch hd' ha)
          rw [ha] at this
          cases this
        · simp [hc] at hd
    · exact ⟨[], stateless h0, Or.inl rfl⟩
  · rw [step_foreign he hm]
    exact ⟨[], .refl, Or.inl rfl⟩

/-- Timer C answers the caller. -/
theorem upstream_timerC {k : Settings} {req : Request} :
    (c.timerFires k env req .timerC).2.filterMap Output.upstreamStatus = [408] := by
  have quiet : ∀ {d : ClientTransaction}, (d.setState k .terminated).2.filterMap Output.upstreamStatus = [] := fun {d} =>
    picks_upstream.plain.eq_nil fun y hy => by
      obtain ⟨rfl, -⟩ := ClientTransaction.mem_setState_later (by simp) (by simp) hy
      rfl
  have hcheck : ∀ {b : Bool} {t : TimerName}, (check b (.firedIn t)).filterMap Output.upstreamStatus = [] := by
    rintro (_ | _) t <;> rfl
  have hcancel : ∀ {d : ClientTransaction}, (d.cancelRequest k env).2.filterMap Output.upstreamStatus = [] := fun {d} =>
    picks_upstream.plain.actions fun y hy => (cancelRequest_outputs hy).2
  simp only [ClientTransaction.timerFires, List.filterMap_append, List.filterMap_cons, Output.upstreamStatus]
  rw [hcheck, quiet]
  split
  · rw [hcancel]
    rfl
  · rfl

/-- The end of a timer callback that may end the search. -/
theorem fine_finishSearch {l : List Output} (hf : ∀ c ∈ s.all, ∀ r, c.msgFinal = some r → 300 ≤ r.status)
    (hact : FinalSent l → s.searching = true → ∃ d ∈ s.clients, d.isCallingOrProceeding = true) :
    ∃ u, Sends s (s.finishSearch env) u ∧ Fine l u := by
  obtain ⟨u, hu, hone, hwhen⟩ := sends_finishSearch hf
  refine ⟨u, hu, hone.fine fun hfin => ?_⟩
  by_contra hne
  obtain ⟨hs, hex⟩ := hwhen hne
  obtain ⟨d, hd, ha⟩ := hact hfin hs
  have := exhausted_eq_true.mp hex d hd
  rw [ha] at this
  cases this

theorem fine_fired {t : TimerName} {id : Nat} (hr : Reached s) (he : i.event = .timer t id) (hc : s.firing t id = some c)
    (h : AnswersOnce s i.event) : ∃ u, Sends s (s.step i) u ∧ Fine s.log u := by
  obtain ⟨hfind, harm⟩ := firing_eq_some.mp hc
  obtain ⟨hmem, rfl, -⟩ := firing_spec hc
  have ha : Acts s i c (c.timerFires s.settings i.env s.request t) := .timer he hfind harm
  rw [step_fired he hc]
  rw [he] at h
  have h0 : Sends s (s.emit [.timerFired t c.id]) [] := writes_emit
  have hput := h0.trans (writes_put (x := c.timerFires s.settings i.env s.request t))
  have hfire : Chain s i s (s.emit [.timerFired t c.id]) := .single (.note _ rfl rfl rfl)
  have hchain : Chain s i s (((s.emit [.timerFired t c.id]).put (c.timerFires s.settings i.env s.request t)).removeTerminated
      false) := (hfire.tail (.act ⟨rfl, rfl⟩ ha)).tail .prune
  have hf : ∀ t, Chain s i s t → ∀ c ∈ t.all, ∀ r, c.msgFinal = some r → 300 ≤ r.status := fun t ht =>
    (closed_keepsFailure.chain hr.failures ht).clients
  have others : OthersCalled s c.id → ∃ d ∈ (((s.emit [.timerFired t c.id]).put
      (c.timerFires s.settings i.env s.request t)).removeTerminated false).clients, d.isCallingOrProceeding = true := by
    rintro ⟨d, hd, hne, hact⟩
    have hd' : d ∈ (s.emit [.timerFired t c.id]).clients := hd
    exact ⟨d, mem_clients_removeTerminated_active (mem_clients_put hd' (by simpa using hne)) hact, hact⟩
  have quiet : t ≠ .timerC → Sends s ((s.emit [.timerFired t c.id]).put (c.timerFires s.settings i.env s.request t)) [] :=
    fun hne => writes_fired picks_upstream hr ha (by simp [he, hne])
  have hfired : (s.firing t c.id).isSome = true := by simp [hc]
  cases t with
  | timerA => exact ⟨[], quiet (by simp), Or.inl rfl⟩
  | timerE => exact ⟨[], quiet (by simp), Or.inl rfl⟩
  | timerD => exact ⟨[], (quiet (by simp)).trans writes_removeTerminated, Or.inl rfl⟩
  | timerF => exact ⟨[], (quiet (by simp)).trans writes_removeTerminated, Or.inl rfl⟩
  | timerK => exact ⟨[], (quiet (by simp)).trans writes_removeTerminated, Or.inl rfl⟩
  | timerB =>
    obtain ⟨u, hu, hfine⟩ := fine_finishSearch (l := s.log) (hf _ hchain) fun hfin hs => others (h hfired hfin hs)
    exact ⟨u, ((quiet (by simp)).trans writes_removeTerminated).trans hu, hfine⟩
  | timerC =>
    obtain ⟨hno, hs⟩ := h hfired
    obtain ⟨u, hu, -, hwhen⟩ := sends_finishSearch (hf _ hchain)
    have hnil : u = [] := by
      by_contra hne
      obtain ⟨hsearch, hex⟩ := hwhen hne
      obtain ⟨d, hd, hact⟩ := others (hs hsearch)
      have := exhausted_eq_true.mp hex d hd
      rw [hact] at this
      cases this
    have := (hput.trans writes_removeTerminated).trans hu
    rw [upstream_timerC, hnil] at this
    exact ⟨[408], this, Or.inr ⟨408, rfl, fun hfin => absurd hfin hno⟩⟩
  | timerProvisional =>
    have hmark : Sends s (({ s.emit [.timerFired .timerProvisional c.id] with canceled := true }).put
        (c.timerFires s.settings i.env s.request .timerProvisional)) [] := quiet (by simp)
    have hm : Chain s i s _ := (((hfire.tail (.mark s.server.canceled)).tail (.act ⟨rfl, rfl⟩ ha)).tail
      .prune).tail .start
    obtain ⟨u, hu, hfine⟩ := fine_finishSearch (l := s.log) (hf _ hm) fun hfin hs => by
      obtain ⟨d, hd, hact⟩ := others (h hfired hfin (by simpa using hs))
      refine ⟨d, mem_clients_startRequests hd ?_, hact⟩
      rintro hst
      simp [ClientTransaction.isCallingOrProceeding, hst] at hact
    exact ⟨u, ((hmark.trans writes_removeTerminated).trans (writes_startRequests picks_upstream.plain)).trans hu, hfine⟩

theorem fine_cancel (he : i.event = .cancel) (h : AnswersOnce s i.event) :
    ∃ u, Sends s (s.step i) u ∧ Fine s.log u := by
  rw [he] at h
  unfold ProxyCore.step
  rw [he]
  dsimp only
  split
  · rename_i hreg
    have hmark : Sends s { s with canceled := true, server.canceled := true } [] := .refl
    refine ⟨[487], ?_, Or.inr ⟨487, rfl, fun hfin => absurd hfin (h hreg)⟩⟩
    exact ((hmark.trans (writes_emit (w := [.okToCancel]))).trans (writes_emit (w := [.generateResponse 487]))).trans
      (writes_cancelOutstandingRequests picks_upstream.plain)
  · exact ⟨[], .refl, Or.inl rfl⟩

theorem step_fine (hr : Reached s) (h : AnswersOnce s i.event) : ∃ u, Sends s (s.step i) u ∧ Fine s.log u := by
  cases he : i.event with
  | response r =>
    cases hc : s.taker r with
    | some c => exact fine_taken hr he hc h
    | none => exact fine_untaken hr he hc h
  | timer t id =>
    cases hc : s.firing t id with
    | some c => exact fine_fired hr he hc h
    | none => exact ⟨[], by rw [step_unfired he hc]; exact .refl, Or.inl rfl⟩
  | cancel => exact fine_cancel he h
  | info req => exact ⟨[], writes_request picks_upstream hr (Or.inl ⟨req, he⟩), Or.inl rfl⟩
  | prack rack => exact ⟨[], writes_request picks_upstream hr (Or.inr ⟨rack, he⟩), Or.inl rfl⟩

theorem doProxy_fine (k : Settings) (env : Env) (req : Request) (destinations : List String) :
    ∃ u, Sends (addProxy k env req destinations) (doProxy k env req destinations) u ∧ Fine [] u := by
  have hno : ¬FinalSent [] := by
    rintro ⟨n, hn, -⟩
    cases hn
  have hstart : Sends (addProxy k env req destinations) ((addProxy k env req destinations).startRequests env).1 [] :=
    (writes_startRequests picks_upstream.plain)
  unfold ProxyCore.doProxy
  dsimp only
  split
  · exact ⟨[483], ⟨_, rfl, rfl⟩, Or.inr ⟨483, rfl, fun h => absurd h hno⟩⟩
  · split
    · exact ⟨[500], hstart.trans ⟨_, rfl, rfl⟩, Or.inr ⟨500, rfl, fun h => absurd h hno⟩⟩
    · split
      · exact ⟨[], hstart, Or.inl rfl⟩
      · exact ⟨[], hstart.trans writes_emit, Or.inl rfl⟩

/-! ### Runs -/

/-- The order in which responses go upstream. -/
def Ordered (l : List Output) : Prop := (upstream l).Pairwise fun m n => 200 ≤ m → 200 ≤ n ∧ n ≤ 299

theorem Ordered.sends (h : Ordered s.log) (hs : Sends s t u) (hu : Fine s.log u) : Ordered t.log := by
  obtain ⟨w, hlog, hw⟩ := hs
  rw [Ordered, hlog, upstream, List.filterMap_append, hw]
  refine List.pairwise_append.mpr ⟨h, ?_, fun m hm n hn hfin => ?_⟩
  · rcases hu with rfl | ⟨n, rfl, -⟩ <;> simp
  · rcases hu with rfl | ⟨n, rfl, hn2⟩
    · cases hn
    · rw [List.mem_singleton.mp hn]
      exact hn2 ⟨m, hm, hfin⟩

/-- What follows a failure is a 2xx, so there is one failure at most. -/
theorem Ordered.oneFinal (h : Ordered s.log) : OneFinal s := by
  refine ⟨h, ?_⟩
  have hp : ((upstream s.log).filter (300 ≤ ·)).Pairwise fun m n => 200 ≤ m → 200 ≤ n ∧ n ≤ 299 := h.filter _
  have hge : ∀ n ∈ (upstream s.log).filter (300 ≤ ·), 300 ≤ n := fun n hn => by simpa using (List.mem_filter.mp hn).2
  generalize (upstream s.log).filter (300 ≤ ·) = l at hp hge ⊢
  match l with
  | [] => simp
  | [n] => simp
  | m :: n :: l =>
    have hm := hge m (by simp)
    have hn := hge n (by simp)
    have := (List.pairwise_cons.mp hp).1 n (by simp) (by omega)
    omega

end

/-- In every state of a run whose steps all meet the condition the caller got one final response at most, or several
    of which all but the first are 2xx, and nothing else after it. -/
theorem answers_once (k : Settings) (env : Env) (req : Request) (destinations : List String) (is : List Input)
    (h : Machine.Meets step (fun s i => AnswersOnce s i.event) (doProxy k env req destinations) is) :
    OneFinal (Machine.run step (doProxy k env req destinations) is) := by
  obtain ⟨-, hord⟩ : Reached (Machine.run step (doProxy k env req destinations) is) ∧
      Ordered (Machine.run step (doProxy k env req destinations) is).log := by
    refine Machine.run_induction (I := fun s => Reached s ∧ Ordered s.log) (fun s i hs ho => ?_) ?_ h
    · obtain ⟨u, hu, hfine⟩ := step_fine hs.1 ho
      exact ⟨step_reached hs.1 i, hs.2.sends hu hfine⟩
    · obtain ⟨u, hu, hfine⟩ := doProxy_fine k env req destinations
      have hinit : Ordered (addProxy k env req destinations).log := List.Pairwise.nil
      exact ⟨doProxy_reached, hinit.sends hu hfine⟩
  exact hord.oneFinal

/-- The only target rings and never answers: timer C answers 408, and so does the selection that follows. -/
theorem answers_once_timerC :
    let s := Machine.run step (doProxy { launchType := .serial } .reliable { method := .invite } ["sip:a.example.org"])
      [⟨.reliable, .response { status := 180, method := .invite, branch := 0 }⟩, ⟨.reliable, .timer .timerC 0⟩]
    upstream s.log = [180, 408, 408] ∧ ¬OneFinal s := by
  intro s
  have hup : upstream s.log = [180, 408, 408] := by decide
  refine ⟨hup, fun h => ?_⟩
  have hs := h.single
  rw [hup] at hs
  exact absurd hs (by decide)

/-- Two targets ring; both answer, and each 2xx goes upstream. -/
theorem answers_once_both :
    let is : List Input := [⟨.reliable, .response { status := 180, method := .invite, branch := 0 }⟩,
      ⟨.reliable, .response { status := 180, method := .invite, branch := 1 }⟩,
      ⟨.reliable, .response { status := 200, method := .invite, branch := 1 }⟩,
      ⟨.reliable, .response { status := 200, method := .invite, branch := 0 }⟩]
    let s := doProxy { launchType := .simultaneous } .reliable { method := .invite }
      ["sip:a.example.org", "sip:b.example.org"]
    upstream (Machine.run step s is).log = [180, 180, 200, 200] ∧ OneFinal (Machine.run step s is) :=
  ⟨by decide, answers_once _ _ _ _ _ (by decide)⟩

end Drachtio.Proxy
