import Drachtio.Theorems.Proxy.Launch

/-! Serial hunting: one target is tried at a time, as long as the next one is only started when the one before is
    finished. The loop that starts it does not ask. -/

namespace Drachtio.Proxy
open ProxyCore

/-- Active, and not given up. -/
def ClientTransaction.isPursued (c : ClientTransaction) : Bool := c.isActive && !c.canceled

def OneAtATime (s : ProxyCore) : Prop := (s.all.filter (·.isPursued)).length ≤ 1

/-- Starting those in `l` keeps it to one target: the first has a transport (or the second fails to be sent), and if
    somebody is being tried already, the first fails to be sent. -/
def InTurn (env : Env) (l : List ClientTransaction) (tried : Prop) : Prop :=
  OneStarted env l ∧ (tried → NoneStarted env l)

/-- A failure response that reaches the core, and the provisional timer, find nobody else being tried when they start
    the next target; a provisional response does not reopen a completed transaction while another one is tried. -/
def TakesTurns (s : ProxyCore) (env : Env) : Event → Prop
  | .response r => s.registered = true ∧ r.method = s.request.method ∧ r.method ≠ .prack →
      (∀ c ∈ s.taker r, c.state = .completed ∧ c.canceled = false ∧ 100 ≤ r.status ∧ r.status ≤ 199 →
        ∀ d ∈ s.clients, d.isPursued = false) ∧
      (200 < r.status → s.searching = true → savedChallenge r = none →
        (∀ c ∈ s.taker r, c.isActive = true → 300 ≤ r.status) →
        InTurn env (s.upcoming env r) (∃ d ∈ s.clients, d.isPursued = true ∧ s.taker r ≠ some d))
  | .timer .timerProvisional id => (s.firing .timerProvisional id).isSome = true → s.searching = true →
      InTurn env s.waiting (∃ d ∈ s.clients, d.isPursued = true ∧ d.id ≠ id)
  | _ => True

instance (env : Env) (l : List ClientTransaction) : Decidable (NoneStarted env l) :=
  inferInstanceAs (Decidable (∀ c ∈ l.head?, _))

instance (env : Env) (l : List ClientTransaction) : Decidable (OneStarted env l) :=
  inferInstanceAs (Decidable (∀ c ∈ l.head?, _ ∨ _))

instance (env : Env) (l : List ClientTransaction) (tried : Prop) [Decidable tried] : Decidable (InTurn env l tried) :=
  inferInstanceAs (Decidable (_ ∧ (_ → _)))

instance (s : ProxyCore) (env : Env) : ∀ e, Decidable (TakesTurns s env e)
  | .response r => inferInstanceAs (Decidable (_ → (∀ c ∈ s.taker r, _) ∧ (_ → _ → _ → (∀ c ∈ s.taker r, _) → _)))
  | .timer .timerProvisional _ => inferInstanceAs (Decidable (_ → _ → _))
  | .timer .timerA _ | .timer .timerB _ | .timer .timerC _ | .timer .timerD _ | .timer .timerE _ | .timer .timerF _
  | .timer .timerK _ => isTrue trivial
  | .cancel | .info _ | .prack _ => isTrue trivial

/-- Whoever is being tried has the same identity. -/
def Few (s : ProxyCore) : Prop := ∃ j, ∀ c ∈ s.all, c.isPursued = true → c.id = j

/-- Whoever is tried in `t` was tried in `s`. -/
def Spares (s t : ProxyCore) : Prop := ∀ c ∈ t.all, c.isPursued = true → ∃ d ∈ s.all, d.id = c.id ∧ d.isPursued = true

section
variable {s t u : ProxyCore} {c d : ClientTransaction} {env : Env} {r : Response} {i : Input} {k : Settings} {req : Request}

theorem isPursued_iff : c.isPursued = true ↔ c.isActive = true ∧ c.canceled = false := by
  simp [ClientTransaction.isPursued]

theorem not_pursued_of_not_active (h : c.isActive = false) : c.isPursued = false := by
  simp [ClientTransaction.isPursued, h]

theorem Few.oneAtATime (h : Few s) (hk : WellKeyed s) : OneAtATime s := by
  obtain ⟨j, hj⟩ := h
  have hn : ((s.all.filter (·.isPursued)).map (·.id)).Nodup := (List.Sublist.map _ List.filter_sublist).nodup hk.nodup
  have hall : ∀ c ∈ s.all.filter (·.isPursued), c.id = j := fun c hc =>
    hj c (List.mem_filter.mp hc).1 (List.mem_filter.mp hc).2
  unfold OneAtATime
  generalize s.all.filter (·.isPursued) = l at hn hall
  match l with
  | [] => simp
  | [c] => simp
  | c :: d :: l =>
    have hc := hall c (by simp)
    have hd := hall d (by simp)
    simp [hc, hd] at hn

theorem Spares.refl : Spares s s := fun c hc hp => ⟨c, hc, rfl, hp⟩

theorem Spares.trans (h : Spares s t) (h' : Spares t u) : Spares s u := fun c hc hp => by
  obtain ⟨d, hd, hid, hdp⟩ := h' c hc hp
  obtain ⟨e, he, heid, hep⟩ := h d hd hdp
  exact ⟨e, he, heid.trans hid, hep⟩

theorem Spares.few (h : Spares s t) (hf : Few s) : Few t := by
  obtain ⟨j, hj⟩ := hf
  refine ⟨j, fun c hc hp => ?_⟩
  obtain ⟨d, hd, hid, hdp⟩ := h c hc hp
  rw [← hid]
  exact hj d hd hdp

theorem Spares.of_subset (h : ∀ c ∈ t.all, c ∈ s.all) : Spares s t := fun c hc hp => ⟨c, h c hc, rfl, hp⟩

theorem spares_put {x : ClientTransaction × List Output} (hc : c ∈ s.all) (hid : x.1.id = c.id)
    (h : x.1.isPursued = true → c.isPursued = true) : Spares s (s.put x) := fun d hd hp => by
  rcases mem_put hd with rfl | hd
  · exact ⟨c, hc, hid.symm, h hp⟩
  · exact ⟨d, hd, rfl, hp⟩

theorem cancelRequest_pursued (h : (c.cancelRequest k env).1.isPursued = true) : c.isPursued = true := by
  obtain ⟨ha, hc⟩ := isPursued_iff.mp h
  rw [ClientTransaction.isActive_iff, ClientTransaction.cancelRequest_state] at ha
  refine isPursued_iff.mpr ⟨ClientTransaction.isActive_iff.mpr ?_, ?_⟩
  · cases hs : c.state <;> simp_all
  · by_contra hcan
    rw [ClientTransaction.cancelRequest_canceled (by simpa using hcan)] at hc
    cases hc

theorem spares_cancelOutstandingRequests : Spares s (s.cancelOutstandingRequests env) := fun d hd hp => by
  rcases List.mem_append.mp hd with hd | hd
  · rw [cancelOutstandingRequests_clients] at hd
    obtain ⟨c, hc, rfl⟩ := List.mem_map.mp hd
    exact ⟨c, List.mem_append_left _ hc, by simp, cancelRequest_pursued hp⟩
  · exact ⟨d, List.mem_append_right _ hd, rfl, hp⟩

theorem spares_addClientTransactions {next : Nat} {targets : List String} {target : String} :
    Spares s (s.addClientTransactions (newClients env next targets) target) := fun d hd hp => by
  unfold addClientTransactions at hd
  split at hd
  · rcases List.mem_append.mp hd with hd | hd
    · rcases mem_insertAfter hd with hd | hd
      · exact ⟨d, List.mem_append_left _ hd, rfl, hp⟩
      · obtain ⟨id, target', -, rfl⟩ := mem_newClients hd
        cases hp
    · exact ⟨d, List.mem_append_right _ hd, rfl, hp⟩
  · exact ⟨d, hd, rfl, hp⟩

theorem spares_forwardResponse : Spares s (s.forwardResponse env r) := .of_subset fun c hc => by simpa [all] using hc

theorem spares_reportFinal : Spares s (s.reportFinal r) := .of_subset fun c hc => by simpa [all] using hc

theorem spares_removeTerminated {b : Bool} : Spares s (s.removeTerminated b) := .of_subset fun _ hc => mem_removeTerminated hc

theorem spares_conclude {target : String} {v : ClientTransaction.Verdict} : Spares s (s.conclude env r target v) := by
  cases v with
  | discard => exact .refl
  | forward => exact spares_forwardResponse
  | answered =>
    have hover : Spares s s.endSearch := .of_subset fun _ hc => hc
    have h200 : Spares s (s.notifyForwarded200OK env) :=
      (hover.trans spares_cancelOutstandingRequests).trans spares_removeTerminated
    exact (h200.trans spares_reportFinal).trans spares_forwardResponse
  | rejected =>
    dsimp only [ProxyCore.conclude]
    split
    · exact spares_reportFinal
    · exact spares_addClientTransactions.trans spares_reportFinal

theorem spares_forwardBestResponse : Spares s (s.forwardBestResponse env) := by
  have done : ∀ {t : ProxyCore}, Spares s t →
      Spares s (if t.settings.fullResponse then t.emit [.api .done] else t) := fun {t} ht => by
    split
    · exact ht.trans (.of_subset fun _ hc => hc)
    · exact ht
  have hsort : Spares s { ((s.emit [.bestResponse (s.all.map (·.state))]).endSearch) with clients := sortBest s.clients } :=
    .of_subset fun c hc => by
      rcases List.mem_append.mp hc with hc | hc
      · exact List.mem_append_left _ ((sortBest_perm s.clients).mem_iff.mp hc)
      · exact List.mem_append_right _ hc
  unfold ProxyCore.forwardBestResponse
  dsimp only
  apply done
  split
  · exact hsort.trans (.of_subset fun _ hc => hc)
  · split
    · exact hsort.trans (.of_subset fun _ hc => hc)
    · exact hsort.trans spares_forwardResponse

theorem spares_finishSearch : Spares s (s.finishSearch env) := by
  unfold ProxyCore.finishSearch
  split
  · exact spares_forwardBestResponse
  · exact .refl

/-! ### Steps -/

/-- A response makes a transaction tried only if it was before, or by reopening it. -/
theorem processResponse_pursued (hl : c.Launched) (hm : c.method = r.method)
    (h : (c.processResponse k env r).1.1.isPursued = true) :
    c.isPursued = true ∨ c.state = .completed ∧ c.canceled = false ∧ 100 ≤ r.status ∧ r.status ≤ 199 := by
  obtain ⟨ha, hcan⟩ := isPursued_iff.mp h
  have hc : c.canceled = false := by
    by_contra hc
    rw [ClientTransaction.processResponse_canceled (by simpa using hc)] at hcan
    cases hcan
  have active : c.isActive = true → c.isPursued = true := fun h => isPursued_iff.mpr ⟨h, hc⟩
  rw [ClientTransaction.isActive_iff, ClientTransaction.processResponse_state hm] at ha
  split at ha
  · rename_i hlate
    rw [(ClientTransaction.isLate_iff.mp hlate).1] at hc
    cases hc
  · split at ha
    · exact Or.inl (active (ClientTransaction.isActive_iff.mpr ha))
    · rename_i hold
      rw [ClientTransaction.processNewResponse_state] at ha
      split at ha
      · rename_i hst
        by_cases hs : c.state = .completed
        · exact Or.inr ⟨hs, hc, hst⟩
        · have hns := hl.state
          refine Or.inl (active ?_)
          rw [ClientTransaction.isActive_iff]
          cases hcs : c.state <;> simp_all
      · split at ha
        · split at ha <;> simp at ha
        · split at ha
          · simp at ha
          · exact Or.inl (active (ClientTransaction.isActive_iff.mpr ha))

/-- The actions other than a response make nobody tried who was not. -/
theorem Acts.pursued {x : ClientTransaction × List Output} (hr : Reached s) (ha : Acts s i c x)
    (he : ∀ r, i.event ≠ .response r) (h : x.1.isPursued = true) : c.isPursued = true := by
  obtain ⟨hact, hcan⟩ := isPursued_iff.mp h
  have sent : ∀ {n : TransactionState}, (n = if c.failsToSend i.env then .terminated else c.state) →
      n = .calling ∨ n = .trying ∨ n = .proceeding → c.isActive = true := fun {n} hn hs => by
    rw [hn] at hs
    split at hs
    · simp at hs
    · exact ClientTransaction.isActive_iff.mpr hs
  rcases hr.classified c ha.mem with hd | hl
  · have hdorm := ha.dormant hd
    rcases hdorm.state with hs | hs <;> simp [ClientTransaction.isActive, hs] at hact
  · rw [ClientTransaction.isActive_iff] at hact
    cases ha with
    | response he' _ => exact absurd he' (he _)
    | @timer n _ _ _ _ =>
      have hst : (c.timerFires s.settings i.env s.request n).1.state = _ := ClientTransaction.timerFires_state hl.state n
      have hex : ∀ t, (c.expire t).state ≠ .notStarted := fun t => by rw [ClientTransaction.expire_state]; exact hl.state
      have hexc : ∀ t, (c.expire t).canceled = c.canceled := fun t => by cases t <;> rfl
      cases n with
      | timerA =>
        refine isPursued_iff.mpr ⟨sent hst hact, ?_⟩
        rw [← hexc .timerA, ← ClientTransaction.retransmitRequest_canceled (hex .timerA)]
        exact hcan
      | timerE =>
        refine isPursued_iff.mpr ⟨sent hst hact, ?_⟩
        rw [← hexc .timerE, ← ClientTransaction.retransmitRequest_canceled (hex .timerE)]
        exact hcan
      | _ =>
        rw [hst] at hact
        simp at hact
    | info _ _ =>
      refine isPursued_iff.mpr ⟨sent (ClientTransaction.forwardRequest_state hl.state) hact, ?_⟩
      rw [← ClientTransaction.forwardRequest_canceled hl.state]
      exact hcan
    | prack _ _ => exact isPursued_iff.mpr ⟨ClientTransaction.isActive_iff.mpr hact, hcan⟩

/-- Starting the next target in turn. -/
theorem startRequests_few (hk : s.settings.launchType = .serial) (hf : Few s) (hg : ∀ c ∈ s.gone, c.isActive = false)
    (ht : InTurn env s.waiting (∃ d ∈ s.clients, d.isPursued = true)) : Few (s.startRequests env).1 := by
  unfold ProxyCore.startRequests
  split
  · obtain ⟨j, hj⟩ := hf
    by_cases htried : ∃ d ∈ s.clients, d.isPursued = true
    · refine ⟨j, fun c hc hp => ?_⟩
      rcases List.mem_append.mp hc with hc | hc
      · exact hj c (List.mem_append_left _ (launch_none hk (ht.2 htried) hc (isPursued_iff.mp hp).1)) hp
      · exact hj c (List.mem_append_right _ hc) hp
    · obtain ⟨j', hj'⟩ : ∃ j', ∀ d ∈ (launch s.settings env s.request s.clients).1,
          d.isActive = true → d ∈ s.clients ∨ d.id = j' :=
        launch_one hk ht.1
      refine ⟨j', fun c hc hp => ?_⟩
      rcases List.mem_append.mp hc with hc | hc
      · rcases hj' c hc (isPursued_iff.mp hp).1 with hc | hid
        · exact absurd ⟨c, hc, hp⟩ htried
        · exact hid
      · rw [not_pursued_of_not_active (hg c hc)] at hp
        cases hp
  · exact hf

theorem few_followUp {target : String} (hf : Few s) (hrel : savedChallenge r = none → Few (s.relaunch env r)) :
    Few (s.followUp env r target) := by
  unfold ProxyCore.followUp
  split
  · rename_i realm nonce _
    have hch : Spares s (s.emit [.challenge realm nonce target]) := .of_subset fun _ hc => hc
    exact ((hch.trans spares_removeTerminated).trans spares_forwardBestResponse).few hf
  · rename_i hnone
    exact spares_finishSearch.few (hrel hnone)

theorem few_handOver (h : Surveyed s) (hc : s.taker r = some c) (hf : Few s)
    (ho : c.state = .completed ∧ c.canceled = false ∧ 100 ≤ r.status ∧ r.status ≤ 199 →
      ∀ d ∈ s.clients, d.isPursued = false) :
    Few (s.handOver env r c) := by
  obtain ⟨hmem, hl, hm⟩ := taker_spec h.toReached hc
  suffices hput : Few ((s.emit [.received r]).put (c.processResponse s.settings env r).1) from spares_conclude.few hput
  by_cases hre : c.state = .completed ∧ c.canceled = false ∧ 100 ≤ r.status ∧ r.status ≤ 199
  · -- The transaction is reopened, and nobody else is tried.
    refine ⟨c.id, fun d hd hp => ?_⟩
    rcases mem_put hd with rfl | hd
    · simp
    · rcases List.mem_append.mp hd with hd | hd
      · rw [ho hre d hd] at hp
        cases hp
      · rw [not_pursued_of_not_active (h.parted.gone d hd)] at hp
        cases hp
  · have hem : Spares s (s.emit [.received r]) := .of_subset fun _ hc => hc
    refine (hem.trans (spares_put (c := c) (List.mem_append_left _ hmem) (by simp) fun hp => ?_)).few hf
    exact (processResponse_pursued hl hm hp).resolve_right hre

/-- Who is tried once a failure response was handed over was tried before, elsewhere. -/
theorem handOver_tried (h : Surveyed s) (hc : s.taker r = some c) (hv : (c.processResponse s.settings env r).2 ≠ .answered)
    (hst : 200 < r.status) (hd : d ∈ (s.handOver env r c).clients) (hp : d.isPursued = true) :
    ∃ e ∈ s.clients, e.isPursued = true ∧ s.taker r ≠ some e := by
  obtain ⟨hmem, hl, hm⟩ := taker_spec h.toReached hc
  rw [handOver_clients h.toReached hc hv] at hd
  rcases mem_insertAfter hd with hd | hd
  · obtain ⟨e, he, rfl⟩ := List.mem_map.mp hd
    split at hp
    · -- The taker is finished by a failure response.
      exfalso
      rcases processResponse_pursued hl hm hp with hpc | ⟨-, -, -, h199⟩
      · have hac := (isPursued_iff.mp hpc).1
        have hap := (isPursued_iff.mp hp).1
        rw [processResponse_isActive hac hm, ClientTransaction.processNewResponse_verdict] at hv
        rw [processResponse_isActive hac hm, ClientTransaction.isActive_iff, ClientTransaction.processNewResponse_state,
          if_neg (by omega)] at hap
        split at hap
        · rename_i h2
          rw [if_neg (by omega), if_pos h2] at hv
          exact hv rfl
        · rw [if_pos (by omega)] at hap
          simp at hap
      · omega
    · rename_i hne
      refine ⟨e, he, hp, fun htk => hne ?_⟩
      rw [hc] at htk
      cases htk
      rfl
  · obtain ⟨id, target, -, rfl⟩ := mem_newClients hd
    cases hp

theorem InTurn.mono {l : List ClientTransaction} {p q : Prop} (h : InTurn env l p) (hqp : q → p) : InTurn env l q :=
  ⟨h.1, fun hq => h.2 (hqp hq)⟩

theorem few_relaunch (h : Surveyed s) (hk : s.settings.launchType = .serial) (hchain : Chain s i s t) (hf : Few t)
    (ht : 200 < r.status → t.searching = true → InTurn i.env t.waiting (∃ d ∈ t.clients, d.isPursued = true)) :
    Few (t.relaunch i.env r) := by
  have hprune : Few (t.removeTerminated false) := spares_removeTerminated.few hf
  unfold ProxyCore.relaunch
  split
  · rename_i hst
    by_cases hs : t.searching = true
    · refine startRequests_few ?_ hprune (chain_parted h.toReached h.parted (hchain.tail .prune)).1 ?_
      · rw [removeTerminated_settings, hchain.const.1]
        exact hk
      · rw [waiting_removeTerminated]
        exact (ht hst hs).mono fun ⟨d, hd, hp⟩ => ⟨d, (List.mem_filter.mp hd).1, hp⟩
    · unfold ProxyCore.startRequests
      rw [removeTerminated_searching, if_neg hs]
      exact hprune
  · exact hprune

theorem few_taken (h : Surveyed s) (hk : s.settings.launchType = .serial) (he : i.event = .response r)
    (hc : s.taker r = some c) (hf : Few s) (ho : TakesTurns s i.env i.event) : Few (s.step i) := by
  rw [he] at ho
  obtain ⟨hreg, hmeth, hprack, -⟩ := taker_eq_some.mp hc
  obtain ⟨hre, hnext⟩ := ho ⟨hreg, hmeth, hprack⟩
  rw [step_taken he hc]
  have hover : Few (s.handOver i.env r c) := few_handOver h hc hf (hre c hc)
  refine few_followUp hover fun hch => few_relaunch h hk (chain_handOver he hc) hover fun hst hs => ?_
  rw [handOver_searching, Bool.and_eq_true, bne_iff_ne] at hs
  rw [waiting_handOver h.toReached hc hs.2]
  refine (hnext hst hs.1 hch fun d hd hact => ?_).mono fun ⟨d, hd, hp⟩ => handOver_tried h hc hs.2 hst hd hp
  -- An active taker that does not answer the request is rejected.
  cases hc.symm.trans hd
  by_contra hlt
  have hv := hs.2
  rw [processResponse_isActive hact (taker_spec h.toReached hc).2.2, ClientTransaction.processNewResponse_verdict,
    if_neg (by omega), if_pos (by omega)] at hv
  exact hv rfl

theorem few_untaken (h : Surveyed s) (hk : s.settings.launchType = .serial) (he : i.event = .response r)
    (hc : s.taker r = none) (hf : Few s) (ho : TakesTurns s i.env i.event) : Few (s.step i) := by
  rw [he] at ho
  by_cases hm : r.method = s.request.method
  · rw [step_untaken he hm hc]
    have stateless : ∀ {t : ProxyCore}, Few t → Few (t.emit [.forwardStateless r]) := fun {t} ht => by
      have hem : Spares t (t.emit [.forwardStateless r]) := .of_subset fun _ hc => hc
      exact hem.few ht
    have hem : Spares s (s.emit [.received r]) := .of_subset fun _ hc => hc
    split
    · rename_i hreg
      refine stateless (few_followUp (hem.few hf) fun hch => ?_)
      refine few_relaunch h hk (.single (.note _ rfl rfl rfl)) (hem.few hf) fun hst hs => ?_
      obtain ⟨-, hnext⟩ := ho ⟨hreg.1, hm, hreg.2⟩
      have hturn := hnext hst hs hch fun d hd _ => by rw [hc] at hd; cases hd
      have hwait : s.upcoming i.env r = (s.emit [.received r]).waiting := by
        unfold ProxyCore.upcoming
        rw [hc]
        rfl
      rw [hwait] at hturn
      exact hturn.mono fun ⟨d, hd, hp⟩ => ⟨d, hd, hp, by rw [hc]; simp⟩
    · exact stateless (hem.few hf)
  · rw [step_foreign he hm]
    exact hf

theorem few_fired {n : TimerName} {id : Nat} (h : Surveyed s) (hk : s.settings.launchType = .serial)
    (he : i.event = .timer n id) (hc : s.firing n id = some c) (hf : Few s) (ho : TakesTurns s i.env i.event) :
    Few (s.step i) := by
  obtain ⟨hfind, harm⟩ := firing_eq_some.mp hc
  obtain ⟨hmem, rfl, -⟩ := firing_spec hc
  have ha : Acts s i c (c.timerFires s.settings i.env s.request n) := .timer he hfind harm
  have hput : Spares s ((s.emit [.timerFired n c.id]).put (c.timerFires s.settings i.env s.request n)) := by
    have hem : Spares s (s.emit [.timerFired n c.id]) := .of_subset fun _ hc => hc
    exact hem.trans (spares_put (c := c) hmem (by simp) (ha.pursued h.toReached (by simp [he])))
  rw [step_fired he hc]
  rw [he] at ho
  cases n with
  | timerA => exact hput.few hf
  | timerE => exact hput.few hf
  | timerD => exact (hput.trans spares_removeTerminated).few hf
  | timerF => exact (hput.trans spares_removeTerminated).few hf
  | timerK => exact (hput.trans spares_removeTerminated).few hf
  | timerB => exact ((hput.trans spares_removeTerminated).trans spares_finishSearch).few hf
  | timerC => exact ((hput.trans spares_removeTerminated).trans spares_finishSearch).few hf
  | timerProvisional =>
    have hm : Chain s i s (({ s.emit [.timerFired .timerProvisional c.id] with canceled := true }).put
        (c.timerFires s.settings i.env s.request .timerProvisional)) :=
      ((Relation.ReflTransGen.single (.note _ rfl rfl rfl)).tail (.mark s.server.canceled)).tail (.act ⟨rfl, rfl⟩ ha)
    have hmark : Spares s (({ s.emit [.timerFired .timerProvisional c.id] with canceled := true }).put
        (c.timerFires s.settings i.env s.request .timerProvisional)) := hput
    have hwait : (({ s.emit [.timerFired .timerProvisional c.id] with canceled := true }).put
        (c.timerFires s.settings i.env s.request .timerProvisional)).waiting = s.waiting :=
      waiting_fired h.toReached hc (fired_invite h hc rfl).1
    have hprune := (hmark.trans (spares_removeTerminated (b := false))).few hf
    have hstart : Few ((({ s.emit [.timerFired .timerProvisional c.id] with canceled := true }).put
        (c.timerFires s.settings i.env s.request .timerProvisional)).removeTerminated false |>.startRequests i.env).1 := by
      by_cases hs : s.searching = true
      · refine startRequests_few hk hprune (chain_parted h.toReached h.parted (hm.tail .prune)).1 ?_
        rw [waiting_removeTerminated, hwait]
        refine (ho (by simp [hc]) hs).mono ?_
        rintro ⟨d, hd, hp⟩
        rcases mem_clients_fired h hc (Or.inr (Or.inr rfl)) (List.mem_filter.mp hd).1 with hdone | ⟨hd, hne⟩
        · rw [not_pursued_of_not_active (not_active_of_done hdone)] at hp
          cases hp
        · exact ⟨d, hd, hp, hne⟩
      · unfold ProxyCore.startRequests
        rw [if_neg (by simpa using hs)]
        exact hprune
    exact spares_finishSearch.few hstart

theorem step_few (h : Surveyed s) (hk : s.settings.launchType = .serial) (hf : Few s) (ho : TakesTurns s i.env i.event) :
    Few (s.step i) := by
  cases he : i.event with
  | response r =>
    cases hc : s.taker r with
    | some c => exact few_taken h hk he hc hf ho
    | none => exact few_untaken h hk he hc hf ho
  | timer n id =>
    cases hc : s.firing n id with
    | some c => exact few_fired h hk he hc hf ho
    | none =>
      rw [step_unfired he hc]
      exact hf
  | cancel =>
    unfold ProxyCore.step
    rw [he]
    dsimp only
    split
    · have hmark : Spares s ((({ s with canceled := true, server.canceled := true } : ProxyCore).emit
          [.okToCancel]).generateResponse 487) := .of_subset fun _ hc => hc
      exact (hmark.trans spares_cancelOutstandingRequests).few hf
    · exact hf
  | info req =>
    unfold ProxyCore.step
    rw [he]
    dsimp only
    split
    · unfold ProxyCore.forwardRequest
      split
      · exact hf
      · rename_i c hc
        have ha : Acts s i c _ := .info he hc
        exact (spares_put (c := c) ha.mem (by simp) (ha.pursued h.toReached (by simp [he]))).few hf
    · exact hf
  | prack rack =>
    unfold ProxyCore.step
    rw [he]
    dsimp only
    split
    · unfold ProxyCore.forwardPrack
      dsimp only
      split
      · exact hf
      · rename_i c hc
        have ha : Acts s i c _ := .prack he hc
        exact (spares_put (c := c) ha.mem (by simp) (ha.pursued h.toReached (by simp [he]))).few hf
    · exact hf

/-! ### Runs -/

theorem doProxy_few {destinations : List String} (hk : k.launchType = .serial)
    (h : req.maxForwards = some 0 ∨ OneStarted env (newClients env 0 destinations)) :
    Few (doProxy k env req destinations) := by
  have hnew : ∀ c ∈ (addProxy k env req destinations).all, c.state = .notStarted := fun c hc => by
    have hmem : c ∈ newClients env 0 destinations := by simpa [addProxy, all] using hc
    obtain ⟨id, target, -, rfl⟩ := mem_newClients hmem
    rfl
  have hinit : Few (addProxy k env req destinations) := ⟨0, fun c hc hp => by
    have hact := (isPursued_iff.mp hp).1
    simp [ClientTransaction.isActive, hnew c hc] at hact⟩
  have quiet : ∀ {s t : ProxyCore}, t.all = s.all → Few s → Few t := fun {s t} hall hs => by
    obtain ⟨j, hj⟩ := hs
    exact ⟨j, fun c hc => hj c (hall ▸ hc)⟩
  unfold ProxyCore.doProxy
  dsimp only
  split
  · exact quiet rfl hinit
  · rename_i hmax
    have hwait : (addProxy k env req destinations).waiting = newClients env 0 destinations := by
      refine List.filter_eq_self.mpr fun c hc => ?_
      simp [hnew c (List.mem_append_left _ hc)]
    have hstart : Few ((addProxy k env req destinations).startRequests env).1 := by
      refine startRequests_few hk hinit (by simp [addProxy]) ?_
      rw [hwait]
      refine ⟨h.resolve_left hmax, ?_⟩
      rintro ⟨d, hd, hp⟩
      have hact := (isPursued_iff.mp hp).1
      simp [ClientTransaction.isActive, hnew d (List.mem_append_left _ hd)] at hact
    split
    · exact quiet rfl hstart
    · split
      · exact hstart
      · exact quiet rfl hstart

end

/-- In every state of a serial run that takes turns, from its start on, one client transaction at most is calling,
    trying or proceeding and not given up. -/
theorem serial_one_at_a_time (k : Settings) (env : Env) (req : Request) (destinations : List String) (is : List Input)
    (hk : k.launchType = .serial) (hstart : req.maxForwards = some 0 ∨ OneStarted env (newClients env 0 destinations))
    (h : Machine.Meets step (fun s i => TakesTurns s i.env i.event) (doProxy k env req destinations) is) :
    OneAtATime (Machine.run step (doProxy k env req destinations) is) := by
  have hset : (doProxy k env req destinations).settings = k := doProxy_settings
  obtain ⟨hs, -, hf⟩ : Surveyed (Machine.run step (doProxy k env req destinations) is) ∧
      (Machine.run step (doProxy k env req destinations) is).settings.launchType = .serial ∧
      Few (Machine.run step (doProxy k env req destinations) is) := by
    refine Machine.run_induction (I := fun s => Surveyed s ∧ s.settings.launchType = .serial ∧ Few s)
      (fun s i hs ho => ?_) ?_ h
    · exact ⟨step_surveyed hs.1 i, by rw [step_settings]; exact hs.2.1, step_few hs.1 hs.2.1 hs.2.2 ho⟩
    · exact ⟨doProxy_surveyed, by rw [hset]; exact hk, doProxy_few hk hstart⟩
  exact hf.oneAtATime hs.keyed

/-- The first of three targets is busy and says so twice: the retransmission starts the third while the second is
    being tried. -/
theorem serial_retransmission :
    let s := Machine.run step (doProxy { launchType := .serial } .reliable { method := .invite }
      ["sip:a.example.org", "sip:b.example.org", "sip:c.example.org"])
      [⟨.reliable, .response { status := 486, method := .invite, branch := 0 }⟩,
        ⟨.reliable, .response { status := 486, method := .invite, branch := 0 }⟩]
    s.clients.map (·.state) = [.completed, .calling, .calling] ∧ ¬OneAtATime s := by
  refine ⟨by decide, ?_⟩
  unfold OneAtATime
  decide

/-- Three targets, one after the other. -/
theorem serial_one_at_a_time_busy :
    let is : List Input := [⟨.reliable, .response { status := 486, method := .invite, branch := 0 }⟩,
      ⟨.reliable, .response { status := 180, method := .invite, branch := 1 }⟩,
      ⟨.reliable, .response { status := 486, method := .invite, branch := 1 }⟩]
    let s := doProxy { launchType := .serial } .reliable { method := .invite }
      ["sip:a.example.org", "sip:b.example.org", "sip:c.example.org"]
    (Machine.run step s is).clients.map (·.state) = [.completed, .completed, .calling] ∧ OneAtATime (Machine.run step s is) :=
  ⟨by decide, serial_one_at_a_time _ _ _ _ _ rfl (Or.inr (by decide)) (by decide)⟩

end Drachtio.Proxy
