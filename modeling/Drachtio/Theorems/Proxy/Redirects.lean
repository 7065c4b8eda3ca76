import Drachtio.Theorems.Proxy.Launch

/-! The targets of a core, when it follows redirects. Nothing compares a Contact with the targets that the core has
    had, so a search goes on for as long as it is redirected; but each client transaction is started once, and the
    targets are those that were named. -/

namespace Drachtio.Proxy
open ProxyCore

/-! ### What is named -/

/-- The targets that a step adds: the Contacts of a redirect that an active client transaction takes. -/
def ProxyCore.followed (s : ProxyCore) (i : Input) : List String :=
  match i.event with
  | .response r =>
    match s.taker r with
    | some c => if c.isActive then redirects s.settings r else []
    | none => []
  | _ => []

def ProxyCore.targets (s : ProxyCore) : List String := s.all.map (·.target)

/-- The client transactions of `t` have the targets of those of `s`, and the others given. -/
def Names (s t : ProxyCore) (l : List String) : Prop := t.targets.Perm (s.targets ++ l)

section
variable {s t u : ProxyCore} {env : Env} {r : Response} {c : ClientTransaction} {l l' : List String}

theorem Names.of_eq (h : t.targets = s.targets) : Names s t [] := by
  rw [Names, h, List.append_nil]

theorem Names.trans (h : Names s t l) (h' : Names t u l') : Names s u (l ++ l') := by
  have happend := List.Perm.trans h' (List.Perm.append_right l' h)
  rwa [List.append_assoc] at happend

/-- The second part names nothing. -/
theorem Names.then (h : Names s t l) (h' : Names t u []) : Names s u l := by
  have hboth := h.trans h'
  rwa [List.append_nil] at hboth

theorem names_put {x : ClientTransaction × List Output} (h : ∀ d ∈ s.all, d.id = x.1.id → d.target = x.1.target) :
    Names s (s.put x) [] := by
  refine .of_eq ?_
  show List.map _ (List.map _ s.clients ++ List.map _ s.gone) = _
  rw [← List.map_append, List.map_map]
  refine List.map_congr_left fun d hd => ?_
  simp only [Function.comp_apply]
  split
  · rename_i hid
    exact (h d hd hid).symm
  · rfl

theorem names_removeTerminated {b : Bool} : Names s (s.removeTerminated b) [] := by
  rw [Names, List.append_nil]
  exact perm_removeTerminated.map _

theorem names_cancelOutstandingRequests : Names s (s.cancelOutstandingRequests env) [] := by
  refine .of_eq ?_
  simp only [targets, all, List.map_append, cancelOutstandingRequests_clients, cancelOutstandingRequests_gone,
    List.map_map]
  congr 1
  exact List.map_congr_left fun d _ => ClientTransaction.cancelRequest_kept.target

theorem forwardRequest_target {k : Settings} {req : Request} : (c.forwardRequest k env req).1.1.target = c.target := by
  by_cases hs : c.state = .notStarted
  · unfold ClientTransaction.forwardRequest
    simp only [if_pos hs]
    split
    · split <;> simp only [ClientTransaction.setState_target]
    · simp only [ClientTransaction.setState_target]
  · exact (ClientTransaction.forwardRequest_kept hs).target

theorem targets_launch {k : Settings} {req : Request} :
    ∀ l : List ClientTransaction, (launch k env req l).1.map (·.target) = l.map (·.target)
  | [] => rfl
  | c :: l => by
    have ih : (launch k env req l).1.map (·.target) = l.map (·.target) := targets_launch l
    unfold launch
    split
    · dsimp only
      split
      · rw [List.map_cons, List.map_cons, forwardRequest_target]
      · rw [List.map_cons, List.map_cons, forwardRequest_target, ih]
    · dsimp only
      rw [List.map_cons, List.map_cons, ih]

theorem names_startRequests : Names s (s.startRequests env).1 [] := by
  refine .of_eq ?_
  unfold startRequests
  split
  · simp only [targets, all, List.map_append, targets_launch]
  · rfl

theorem names_reportFinal : Names s (s.reportFinal r) [] := by
  refine .of_eq ?_
  unfold ProxyCore.reportFinal
  split <;> rfl

theorem names_forwardResponse : Names s (s.forwardResponse env r) [] := by
  refine .of_eq ?_
  unfold ProxyCore.forwardResponse
  dsimp only
  split <;> rfl

theorem names_forwardBestResponse : Names s (s.forwardBestResponse env) [] := by
  have hsort : Names s { (s.emit [.bestResponse (s.all.map (·.state))]).endSearch with clients := sortBest s.clients }
      [] := by
    rw [Names, List.append_nil]
    exact ((sortBest_perm s.clients).append_right s.gone).map _
  unfold ProxyCore.forwardBestResponse
  dsimp only
  have done : ∀ {u : ProxyCore}, Names s u [] → Names s (if u.settings.fullResponse then u.emit [.api .done] else u) [] :=
    fun hu => by
      split
      · exact hu.then (.of_eq rfl)
      · exact hu
  apply done
  split
  · exact hsort.then (.of_eq rfl)
  · split
    · exact hsort.then (.of_eq rfl)
    · exact hsort.then names_forwardResponse

theorem names_finishSearch : Names s (s.finishSearch env) [] := by
  unfold ProxyCore.finishSearch
  split
  · exact names_forwardBestResponse
  · exact .of_eq rfl

theorem names_followUp {target : String} : Names s (s.followUp env r target) [] := by
  unfold ProxyCore.followUp
  split
  · rename_i realm nonce _
    have hch : Names s (s.emit [.challenge realm nonce target]) [] := .of_eq rfl
    exact (hch.then names_removeTerminated).then names_forwardBestResponse
  · refine Names.then ?_ names_finishSearch
    unfold ProxyCore.relaunch
    split
    · exact names_removeTerminated.then names_startRequests
    · exact names_removeTerminated

theorem length_newClients {next : Nat} : (newClients env next l).length = l.length := by
  rw [newClients, List.length_map, List.length_zipIdx]

theorem targets_newClients {next : Nat} : (newClients env next l).map (·.target) = l := by
  rw [newClients, List.map_map]
  exact List.zipIdx_map_fst ..

theorem names_addClientTransactions {target : String} (h : s.clients.any (·.target == target) = true) :
    Names s (s.addClientTransactions (newClients env s.nextId l) target) l := by
  have hp : ((insertAfter target (newClients env s.nextId l) s.clients ++ s.gone).map (·.target)).Perm (l ++ s.targets) := by
    refine (((insertAfter_perm h).append_right s.gone).map _).trans (.of_eq ?_)
    rw [List.append_assoc, List.map_append, targets_newClients]
    rfl
  unfold Names addClientTransactions
  rw [if_pos h]
  exact hp.trans List.perm_append_comm

/-- An action on a client transaction leaves its target. -/
theorem names_act {i : Input} {x : ClientTransaction × List Output} (hr : Reached s) (ha : Acts s i c x)
    (hu : u.all = s.all) : Names u (u.put x) [] := by
  refine names_put fun d hd hid => ?_
  obtain rfl := hr.keyed.eq_of_id (hu ▸ hd) ha.mem (hid.trans ha.id_eq)
  rcases hr.classified d ha.mem with hdormant | hl
  · obtain ⟨rack, -, rfl⟩ := ha.prack_of_dormant hdormant
    rfl
  · exact (ha.kept hl).target.symm

theorem names_conclude {target : String} {v : ClientTransaction.Verdict} (h : s.clients.any (·.target == target) = true) :
    Names s (s.conclude env r target v) (if v = .rejected then redirects s.settings r else []) := by
  cases v with
  | discard => exact .of_eq rfl
  | forward => exact names_forwardResponse
  | answered =>
    have hend : Names s s.endSearch [] := .of_eq rfl
    exact (((hend.then names_cancelOutstandingRequests).then names_removeTerminated).then names_reportFinal).then
      names_forwardResponse
  | rejected =>
    rw [if_pos rfl]
    refine Names.then ?_ names_reportFinal
    split
    · rename_i hnil
      rw [hnil]
      exact .of_eq rfl
    · exact names_addClientTransactions h

/-- The target of the transaction that takes a response is found. -/
theorem taken_any (hr : Reached s) (hc : s.taker r = some c) :
    ((s.emit [.received r]).put (c.processResponse s.settings env r).1).clients.any (·.target == c.target) = true := by
  rw [List.any_eq_true]
  refine ⟨_, List.mem_map_of_mem (show c ∈ (s.emit [.received r]).clients from (taker_spec hr hc).1), ?_⟩
  rw [if_pos ClientTransaction.processResponse_id.symm]
  exact beq_iff_eq.mpr ClientTransaction.processResponse_kept.target

theorem names_handOver {i : Input} (hr : Reached s) (he : i.event = .response r) (hc : s.taker r = some c) :
    Names s (s.handOver i.env r c) (if c.isActive then redirects s.settings r else []) := by
  obtain ⟨hmem, hl, hm⟩ := taker_spec hr hc
  have hput : Names (s.emit [.received r]) ((s.emit [.received r]).put (c.processResponse s.settings i.env r).1) [] :=
    names_act hr (.response he hc) rfl
  have hconclude : Names s (s.handOver i.env r c)
      ([] ++ if (c.processResponse s.settings i.env r).2 = .rejected then redirects s.settings r else []) :=
    hput.trans (names_conclude (taken_any hr hc))
  by_cases hv : (c.processResponse s.settings i.env r).2 = .rejected
  · rw [if_pos (verdict_rejected hl hv).1]
    rwa [hv, if_pos rfl] at hconclude
  · rw [redirects_of_not_rejected hm hv]
    rwa [if_neg hv] at hconclude

/-- A step names the Contacts that it follows. -/
theorem names_step (hr : Reached s) (i : Input) : Names s (s.step i) (s.followed i) := by
  have stay : ∀ l, s.followed i = l → Names s (s.step i) l → Names s (s.step i) (s.followed i) := fun l hl h => hl ▸ h
  cases he : i.event with
  | response r =>
    cases hc : s.taker r with
    | some c =>
      -- A transaction takes the response: only this case may follow a redirect.
      refine stay (if c.isActive then redirects s.settings r else []) (by simp only [followed, he, hc]) ?_
      rw [step_taken he hc]
      exact (names_handOver hr he hc).then names_followUp
    | none =>
      refine stay [] (by simp only [followed, he, hc]) ?_
      by_cases hm : r.method = s.request.method
      · -- No transaction takes it: the follow-up may launch targets, but none is named.
        rw [step_untaken he hm hc]
        have hreceived : Names s (s.emit [.received r]) [] := .of_eq rfl
        split
        · exact (hreceived.then names_followUp).then (.of_eq rfl)
        · exact hreceived.then (.of_eq rfl)
      · rw [step_foreign he hm]
        exact .of_eq rfl
  | timer n id =>
    refine stay [] (by simp only [followed, he]) ?_
    cases hc : s.firing n id with
    | none =>
      rw [step_unfired he hc]
      exact .of_eq rfl
    | some c =>
      obtain ⟨hfind, harm⟩ := firing_eq_some.mp hc
      obtain ⟨-, rfl, -⟩ := firing_spec hc
      have ha : Acts s i c (c.timerFires s.settings i.env s.request n) := .timer he hfind harm
      have hput : Names s ((s.emit [.timerFired n c.id]).put (c.timerFires s.settings i.env s.request n)) [] :=
        names_act hr ha rfl
      rw [step_fired he hc]
      cases n with
      | timerA => exact hput
      | timerE => exact hput
      | timerD => exact hput.then names_removeTerminated
      | timerF => exact hput.then names_removeTerminated
      | timerK => exact hput.then names_removeTerminated
      | timerB => exact (hput.then names_removeTerminated).then names_finishSearch
      | timerC => exact (hput.then names_removeTerminated).then names_finishSearch
      | timerProvisional =>
        -- No provisional response in time: of the timers only this one starts further targets.
        have hmark : Names s (({ s.emit [.timerFired .timerProvisional c.id] with canceled := true }).put
            (c.timerFires s.settings i.env s.request .timerProvisional)) [] := names_act hr ha rfl
        exact ((hmark.then names_removeTerminated).then names_startRequests).then names_finishSearch
  | cancel =>
    refine stay [] (by simp only [followed, he]) ?_
    unfold ProxyCore.step
    rw [he]
    dsimp only
    split
    · have hmark : Names s ((({ s with canceled := true, server.canceled := true } : ProxyCore).emit
          [.okToCancel]).generateResponse 487) [] := .of_eq rfl
      exact hmark.then names_cancelOutstandingRequests
    · exact .of_eq rfl
  | info req =>
    refine stay [] (by simp only [followed, he]) ?_
    unfold ProxyCore.step
    rw [he]
    dsimp only
    split
    · unfold ProxyCore.forwardRequest
      split
      · exact .of_eq rfl
      · rename_i c hc
        exact names_act hr (.info he hc) rfl
    · exact .of_eq rfl
  | prack rack =>
    refine stay [] (by simp only [followed, he]) ?_
    unfold ProxyCore.step
    rw [he]
    dsimp only
    split
    · unfold ProxyCore.forwardPrack
      dsimp only
      split
      · exact .of_eq rfl
      · rename_i c hc
        exact names_act hr (.prack he hc) rfl
    · exact .of_eq rfl

end

/-! ### What is started -/

/-- The client transaction that leaves not_started for calling or trying. -/
def Output.launched : Output → Option Nat
  | .stateChange id .notStarted .calling | .stateChange id .notStarted .trying => some id
  | _ => none

/-- The client transactions that were started, in order. -/
def ProxyCore.started (s : ProxyCore) : List Nat := s.log.filterMap Output.launched

/-- Who was started is launched, and was started once. -/
structure Once (s : ProxyCore) : Prop where
  nodup : s.started.Nodup
  launched : ∀ id ∈ s.started, ∃ c ∈ s.all, c.id = id ∧ c.Launched

section
variable {s₀ s t : ProxyCore} {i : Input} {env : Env} {k : Settings} {req : Request} {c : ClientTransaction} {w : List Output}

theorem Output.launched_eq_none {x : Output} (h : x.isLaunch = false) : x.launched = none := by
  unfold Output.launched
  split
  · exact nomatch h
  · exact nomatch h
  · rfl

theorem launched_nil (h : ∀ x ∈ w, x.isLaunch = false) : w.filterMap Output.launched = [] :=
  List.filterMap_eq_nil_iff.mpr fun x hx => Output.launched_eq_none (h x hx)

/-- A step that starts nobody and keeps who was launched. -/
theorem Once.quiet (h : Once s) (hlog : t.log = s.log ++ w) (hw : ∀ x ∈ w, x.isLaunch = false)
    (hc : ∀ c ∈ s.all, c.Launched → ∃ d ∈ t.all, d.id = c.id ∧ d.Launched) : Once t := by
  have hstarted : t.started = s.started := by
    rw [started, hlog, List.filterMap_append, launched_nil hw, List.append_nil]
    rfl
  refine ⟨hstarted ▸ h.nodup, fun id hid => ?_⟩
  obtain ⟨c, hmem, rfl, hl⟩ := h.launched id (hstarted ▸ hid)
  exact hc c hmem hl

theorem Once.same (h : Once s) (hlog : t.log = s.log ++ w) (hw : ∀ x ∈ w, x.isLaunch = false) (hall : s.all ⊆ t.all) :
    Once t :=
  h.quiet hlog hw fun c hc hl => ⟨c, hall hc, rfl, hl⟩

theorem launched_check {b : Bool} {a : Assertion} : (check b a).filterMap Output.launched = [] :=
  List.filterMap_eq_nil_iff.mpr fun _ hx => (ClientTransaction.mem_check hx).1 ▸ rfl

/-- A change of state is all that `setState` can launch. -/
theorem launched_setState {n : TransactionState} (hn : n ≠ c.state) :
    (c.setState k n).2.filterMap Output.launched = (Output.stateChange c.id c.state n).launched.toList := by
  have hinvite : ∀ d : ClientTransaction, (d.enterInvite k n).2.filterMap Output.launched = [] := by
    intro d
    cases n <;> simp only [ClientTransaction.enterInvite, List.filterMap_append, launched_check, List.filterMap_nil,
      List.append_nil]
  have hother : ∀ d : ClientTransaction, (d.enterNonInvite n).2.filterMap Output.launched = [] := by
    intro d
    cases n <;> simp only [ClientTransaction.enterNonInvite, List.filterMap_append, launched_check, List.filterMap_nil,
      List.append_nil]
  unfold ClientTransaction.setState
  rw [if_neg hn]
  dsimp only
  rw [List.filterMap_cons]
  split
  · rename_i hnone
    rw [hnone]
    split
    · exact hinvite _
    · exact hother _
  · rename_i id hsome
    rw [hsome]
    split
    · exact congrArg _ (hinvite _)
    · exact congrArg _ (hother _)

/-- Starting a client transaction is one launch. -/
theorem forwardRequest_launched (hs : c.state = .notStarted) :
    (c.forwardRequest k env req).1.2.filterMap Output.launched = [c.id] := by
  have hbegin : ∀ n, n = .calling ∨ n = .trying → ∀ d : ClientTransaction, d.state = .notStarted → d.id = c.id →
      (d.setState k n).2.filterMap Output.launched = [c.id] ∧
        ((d.setState k n).1.setState k .terminated).2.filterMap Output.launched = [] := by
    rintro n hn d hd hid
    have hne : n ≠ d.state := by rcases hn with rfl | rfl <;> rw [hd] <;> exact nofun
    have hne' : TransactionState.terminated ≠ (d.setState k n).1.state := by
      rw [ClientTransaction.setState_state]
      rcases hn with rfl | rfl <;> exact nofun
    rw [launched_setState hne, launched_setState hne', ClientTransaction.setState_state, hd, hid]
    rcases hn with rfl | rfl <;> exact ⟨rfl, rfl⟩
  have hchoice : ∀ b : Bool, (if b = true then TransactionState.calling else .trying) = .calling ∨
      (if b = true then TransactionState.calling else .trying) = .trying := by
    intro b
    cases b
    · exact Or.inr rfl
    · exact Or.inl rfl
  let branched := { c with transmitCount := c.transmitCount + 1, branch := some c.id, method := req.method }
  obtain ⟨hmoved, hstopped⟩ := hbegin _ (hchoice branched.isInviteTransaction) branched hs rfl
  unfold ClientTransaction.forwardRequest
  simp only [if_pos hs]
  split
  · split
    · rw [List.filterMap_append, List.filterMap_append, launched_check, List.nil_append, hmoved]
      rfl
    · rw [List.filterMap_append, List.filterMap_append, launched_check, List.nil_append, hmoved, hstopped, List.append_nil]
  · rw [List.filterMap_append, launched_check, List.nil_append, hmoved]

theorem forwardRequest_isLaunched (hs : c.state = .notStarted) : (c.forwardRequest k env req).1.1.Launched := by
  have hkept : (c.forwardRequest k env req).1.1.branch = some c.id ∧ _ := ClientTransaction.forwardRequest_launch hs
  exact ⟨by rw [hkept.1, ClientTransaction.forwardRequest_id], hkept.2.2⟩

/-- The loop of startRequests starts some of those that wait, each once. -/
theorem launch_launched (k : Settings) (env : Env) (req : Request) (l : List ClientTransaction) :
    ((launch k env req l).2.1.filterMap Output.launched).Sublist ((l.filter (·.state == .notStarted)).map (·.id)) ∧
      ∀ id ∈ (launch k env req l).2.1.filterMap Output.launched, ∃ c ∈ (launch k env req l).1, c.id = id ∧ c.Launched := by
  induction l with
  | nil => exact ⟨List.nil_sublist _, nofun⟩
  | cons c l ih =>
    obtain ⟨hsub, hmem⟩ := ih
    unfold launch
    by_cases hs : c.state = .notStarted
    · have hout : (c.forwardRequest k env req).1.2.filterMap Output.launched = [c.id] := forwardRequest_launched hs
      have hid : (c.forwardRequest k env req).1.1.id = c.id := ClientTransaction.forwardRequest_id
      have hl : (c.forwardRequest k env req).1.1.Launched := forwardRequest_isLaunched hs
      simp only [if_pos hs]
      have hwaits : (c :: l).filter (·.state == .notStarted) = c :: l.filter (·.state == .notStarted) :=
        List.filter_cons_of_pos (beq_iff_eq.mpr hs)
      rw [hwaits, List.map_cons]
      split
      · rw [hout]
        refine ⟨(List.nil_sublist _).cons_cons _, fun id hid' => ?_⟩
        obtain rfl := List.mem_singleton.mp hid'
        exact ⟨_, List.mem_cons_self, hid, hl⟩
      · dsimp only
        rw [List.filterMap_append, hout]
        refine ⟨hsub.cons_cons _, fun id hid' => ?_⟩
        rcases List.mem_cons.mp hid' with rfl | hid'
        · exact ⟨_, List.mem_cons_self, hid, hl⟩
        · obtain ⟨d, hd, hid', hl'⟩ := hmem id hid'
          exact ⟨d, List.mem_cons_of_mem _ hd, hid', hl'⟩
    · simp only [if_neg hs]
      rw [List.filter_cons_of_neg (by simpa using hs)]
      refine ⟨hsub, fun id hid => ?_⟩
      obtain ⟨d, hd, hid', hl'⟩ := hmem id hid
      exact ⟨d, List.mem_cons_of_mem _ hd, hid', hl'⟩

theorem mem_launch_of_started (hs : c.state ≠ .notStarted) :
    ∀ {l : List ClientTransaction}, c ∈ l → c ∈ (launch k env req l).1
  | [], hc => nomatch hc
  | d :: l, hc => by
    unfold launch
    rcases List.mem_cons.mp hc with rfl | hc
    · simp only [if_neg hs]
      exact List.mem_cons_self
    · split
      · dsimp only
        split
        · exact List.mem_cons_of_mem _ hc
        · exact List.mem_cons_of_mem _ (mem_launch_of_started hs hc)
      · exact List.mem_cons_of_mem _ (mem_launch_of_started hs hc)

theorem Once.startRequests (h : Once s) (hk : WellKeyed s) : Once (s.startRequests env).1 := by
  unfold ProxyCore.startRequests
  split
  · obtain ⟨hsub, hmem⟩ := launch_launched s.settings env s.request s.clients
    have hwaiting : ((s.clients.filter (·.state == .notStarted)).map (·.id)).Sublist (s.all.map (·.id)) :=
      (List.filter_sublist.trans (List.sublist_append_left _ _)).map _
    have hnodup := (hwaiting.nodup hk.nodup)
    refine ⟨?_, fun id hid => ?_⟩
    · show ((s.log ++ _).filterMap Output.launched).Nodup
      rw [List.filterMap_append]
      refine List.nodup_append.mpr ⟨h.nodup, hsub.nodup hnodup, fun a ha b hb hab => ?_⟩
      -- Who was started before does not wait any more.
      obtain ⟨c, hc, hcid, hl⟩ := h.launched a ha
      obtain ⟨d, hd, hdid⟩ := List.mem_map.mp (hsub.subset hb)
      obtain ⟨hd, hs⟩ := List.mem_filter.mp hd
      obtain rfl := hk.eq_of_id hc (List.mem_append_left _ hd) (by rw [hcid, hdid, hab])
      exact hl.state (beq_iff_eq.mp hs)
    · have hid' : id ∈ s.started ++ (launch s.settings env s.request s.clients).2.1.filterMap Output.launched := by
        rw [started, ← List.filterMap_append]
        exact hid
      rcases List.mem_append.mp hid' with hid | hid
      · obtain ⟨c, hc, hcid, hl⟩ := h.launched id hid
        refine ⟨c, ?_, hcid, hl⟩
        rcases List.mem_append.mp hc with hc | hc
        · exact List.mem_append_left _ (mem_launch_of_started hl.state hc)
        · exact List.mem_append_right _ hc
      · obtain ⟨c, hc, hcid, hl⟩ := hmem id hid
        exact ⟨c, List.mem_append_left _ hc, hcid, hl⟩
  · exact h

theorem Micro.once (hr : Reached s₀) (hk : WellKeyed s) (hm : Micro s₀ i s t) (h : Once s) : Once t := by
  have none : ∀ x ∈ ([] : List Output), x.isLaunch = false := fun _ hx => absurd hx List.not_mem_nil
  have note : ∀ {y : Output}, y.isNote = true → ∀ x ∈ [y], x.isLaunch = false := by
    intro y hy x hx
    rw [List.mem_singleton.mp hx]
    exact Output.isLaunch_note hy
  cases hm with
  | note x hx _ _ => exact h.same (w := [x]) rfl (note hx) (List.Subset.refl _)
  | best _ =>
    have hbest := h.same (t := s.emit [.bestResponse (s.all.map (·.state))]) rfl (note rfl) (List.Subset.refl _)
    exact hbest.same (w := [.searchOver]) rfl (note rfl) (List.Subset.refl _)
  | mark b => exact h.same (w := []) (List.append_nil _).symm none (List.Subset.refl _)
  | forward r _ =>
    unfold ProxyCore.forwardResponse
    dsimp only
    split
    · exact h.same (w := [_]) rfl (note rfl) (List.Subset.refl _)
    · exact h.same (w := []) (List.append_nil _).symm none (List.Subset.refl _)
  | @act c x hs ha =>
    have hall : s.all = s₀.all := congrArg₂ _ hs.1 hs.2
    refine h.quiet (w := x.2) rfl (fun y hy => (ha.quiet (hr.classified c ha.mem) y hy).1) fun d hd hl => ?_
    by_cases hid : d.id = x.1.id
    · obtain rfl := hr.keyed.eq_of_id (hall ▸ hd) ha.mem (hid.trans ha.id_eq)
      refine ⟨x.1, ?_, hid.symm, ha.launched hl⟩
      rw [all, put, ← List.map_append]
      exact List.mem_map.mpr ⟨d, hd, if_pos hid⟩
    · refine ⟨d, ?_, rfl, hl⟩
      rw [all, put, ← List.map_append]
      exact List.mem_map.mpr ⟨d, hd, if_neg hid⟩
  | remove b _ =>
    exact h.same (w := []) (List.append_nil _).symm none fun c hc => perm_removeTerminated.mem_iff.mpr hc
  | start => exact h.startRequests hk
  | endSearch => exact h.same (w := [.searchOver]) rfl (note rfl) (List.Subset.refl _)
  | cancelOutstanding =>
    refine h.quiet cancelOutstandingRequests_log (fun y hy => ?_) fun c hc hl => ?_
    · rcases List.mem_cons.mp hy with rfl | hy
      · rfl
      · rcases List.mem_cons.mp hy with rfl | hy
        · rfl
        · obtain ⟨c, -, hy⟩ := List.mem_flatMap.mp hy
          exact (cancelRequest_outputs hy).1
    · rcases List.mem_append.mp hc with hc | hc
      · refine ⟨(c.cancelRequest s.settings i.env).1, List.mem_append_left _ ?_, ClientTransaction.cancelRequest_kept.id,
          hl.cancelRequest⟩
        rw [cancelOutstandingRequests_clients]
        exact List.mem_map_of_mem hc
      · exact ⟨c, List.mem_append_right _ hc, rfl, hl⟩
  | sort =>
    exact h.same (w := []) (List.append_nil _).symm none fun c hc =>
      ((sortBest_perm s.clients).append_right s.gone).mem_iff.mpr hc
  | add targets target =>
    unfold addClientTransactions
    split
    · rename_i hany
      exact h.same (w := []) (List.append_nil _).symm none fun c hc =>
        ((insertAfter_perm hany).append_right s.gone).mem_iff.mpr (List.append_assoc _ _ _ ▸ List.mem_append_right _ hc)
    · exact h.same (w := [_]) rfl (note rfl) (List.Subset.refl _)

/-- A client transaction is started once. -/
theorem step_once (hr : Reached s) (h : Once s) (i : Input) : Once (s.step i) := by
  suffices hboth : ∀ {t : ProxyCore}, Chain s i s t → Once t ∧ WellKeyed t from (hboth (step_chain s i)).1
  intro t hc
  induction hc with
  | refl => exact ⟨h, hr.keyed⟩
  | tail _ hm ih => exact ⟨hm.once hr ih.2 ih.1, hm.wellKeyed ih.2⟩

theorem doProxy_once {destinations : List String} : Once (doProxy k env req destinations) := by
  refine doProxy_induction ⟨List.nodup_nil, fun _ hid => absurd hid List.not_mem_nil⟩ (fun h => ?_) (fun s w hw h => ?_)
    fun s h => ⟨h.nodup, h.launched⟩
  · exact h.startRequests addProxy_wellKeyed
  · exact h.same rfl (fun x hx => Output.isLaunch_note (hw x hx).1) (List.Subset.refl _)

theorem doProxy_targets {destinations : List String} : (doProxy k env req destinations).targets = destinations := by
  have hinit : (addProxy k env req destinations).targets = destinations := by
    rw [targets, all, addProxy, List.append_nil, targets_newClients]
  refine doProxy_induction (P := fun s => s.targets = destinations) hinit (fun h => ?_) (fun s w _ h => h) fun s h => h
  unfold startRequests
  split
  · rw [targets, all, List.map_append, targets_launch, ← List.map_append]
    exact h
  · exact h

end

/-! ### Runs -/

/-- How often a target was started. -/
def ProxyCore.starts (s : ProxyCore) (u : String) : Nat :=
  s.started.countP fun id => s.all.any fun c => c.id == id && c.target == u

/-- The targets that a run adds, in order. -/
def ProxyCore.named (s : ProxyCore) : List Input → List String
  | [] => []
  | i :: is => s.followed i ++ (s.step i).named is

section
variable {s : ProxyCore} {u : String}

/-- The starts of a target are the client transactions with it that were started. -/
theorem Once.starts_eq (h : Once s) (hk : WellKeyed s) (u : String) :
    s.starts u = s.all.countP fun c => decide (c.id ∈ s.started) && c.target == u := by
  have hperm : (s.started.filter fun id => s.all.any fun c => c.id == id && c.target == u).Perm
      ((s.all.filter fun c => decide (c.id ∈ s.started) && c.target == u).map (·.id)) := by
    refine (List.perm_ext_iff_of_nodup (h.nodup.filter _) ((List.filter_sublist.map _).nodup hk.nodup)).mpr fun id => ?_
    simp only [List.mem_filter, List.mem_map, List.any_eq_true, Bool.and_eq_true, beq_iff_eq, decide_eq_true_eq]
    constructor
    · rintro ⟨hid, c, hc, rfl, hu⟩
      exact ⟨c, ⟨hc, hid, hu⟩, rfl⟩
    · rintro ⟨c, ⟨hc, hid, hu⟩, rfl⟩
      exact ⟨hid, c, hc, rfl, hu⟩
  rw [starts, List.countP_eq_length_filter, hperm.length_eq, List.length_map, List.countP_eq_length_filter]

/-- A target is started at most once for each client transaction that has it. -/
theorem Once.starts_le (h : Once s) (hk : WellKeyed s) (u : String) : s.starts u ≤ s.targets.count u := by
  rw [h.starts_eq hk, targets, List.count_eq_countP, List.countP_map]
  refine List.countP_mono_left fun c _ hc => ?_
  simp only [Bool.and_eq_true] at hc
  exact hc.2

/-- When everybody was started, a target was started once for each client transaction that has it. -/
theorem Once.starts_eq_count (h : Once s) (hk : WellKeyed s) (hall : ∀ c ∈ s.all, c.id ∈ s.started) (u : String) :
    s.starts u = s.targets.count u := by
  rw [h.starts_eq hk, targets, List.count_eq_countP, List.countP_map]
  refine List.countP_congr fun c hc => ?_
  simp [hall c hc]

/-- The targets of a run are those that it starts from and those that it names. -/
theorem names_run (is : List Input) : ∀ {s : ProxyCore}, Reached s → Names s (Machine.run step s is) (s.named is) := by
  induction is with
  | nil => exact fun _ => .of_eq rfl
  | cons i is ih => exact fun hr => (names_step hr i).trans (ih (step_reached hr i))

end

/-! ### Chains of redirects -/

/-- The redirect that a target answers with. -/
def moved (branch : Nat) (contact : String) : Response :=
  { status := 302, method := .invite, branch := branch, contacts := [contact] }

def redirect (env : Env) (branch : Nat) (contact : String) : Input := ⟨env, .response (moved branch contact)⟩

/-- Each of the targets answers with a redirect to the next one, the first of them by the given branch. -/
def redirected (env : Env) (n : Nat) : List String → List Input
  | [] => []
  | u :: us => redirect env n u :: redirected env (n + 1) us

/-- Requests find a transport and are sent. -/
def Env.Delivers (env : Env) : Prop := ∀ id, env.hasTransport id = true ∧ env.sendRequest id = true

theorem Env.Delivers.failsToSend {env : Env} (h : env.Delivers) (c : ClientTransaction) : c.failsToSend env = false := by
  simp [ClientTransaction.failsToSend, (h c.id).2]

/-- Everybody was started, and the last one is being called. -/
structure Chased (n : Nat) (s : ProxyCore) : Prop where
  reached : Reached s
  once : Once s
  searching : s.searching = true
  registered : s.registered = true
  follows : s.settings.followRedirects = true
  invite : s.request.method = .invite
  next : s.nextId = n + 1
  started : ∀ id ≤ n, id ∈ s.started
  called : ∃ c ∈ s.clients, c.id = n ∧ c.state = .calling

section
variable {s : ProxyCore} {n : Nat} {env : Env} {u : String} {k : Settings} {req : Request} {c x : ClientTransaction}
  {l : List ClientTransaction}

/-- The first one that waits is started. -/
theorem launch_first (h : (l.filter (·.state == .notStarted)).head? = some x) :
    (x.forwardRequest k env req).1.1 ∈ (launch k env req l).1 ∧
      x.id ∈ (launch k env req l).2.1.filterMap Output.launched := by
  induction l with
  | nil => cases h
  | cons c l ih =>
    unfold launch
    by_cases hs : c.state = .notStarted
    · have hfirst : (c :: l).filter (·.state == .notStarted) = c :: l.filter (·.state == .notStarted) :=
        List.filter_cons_of_pos (beq_iff_eq.mpr hs)
      rw [hfirst, List.head?_cons] at h
      obtain rfl := Option.some.inj h
      rw [if_pos hs]
      dsimp only
      split
      · exact ⟨List.mem_cons_self, by rw [forwardRequest_launched hs]; exact List.mem_cons_self⟩
      · refine ⟨List.mem_cons_self, ?_⟩
        rw [List.filterMap_append, forwardRequest_launched hs]
        exact List.mem_cons_self
    · rw [List.filter_cons_of_neg (by simpa using hs)] at h
      rw [if_neg hs]
      obtain ⟨hmem, hid⟩ := ih h
      exact ⟨List.mem_cons_of_mem _ hmem, hid⟩

/-- A transaction that waits is started when nobody waits before it, and is called if it can be sent to. -/
theorem startRequests_first (hs : s.searching = true) (hw : s.waiting.head? = some x) (hm : s.request.method = .invite)
    (hf : x.failsToSend env = false) : (∃ c ∈ (s.startRequests env).1.clients, c.id = x.id ∧ c.state = .calling) ∧
      x.id ∈ (s.startRequests env).1.started := by
  obtain ⟨hmem, hid⟩ : (x.forwardRequest s.settings env s.request).1.1 ∈ (launch s.settings env s.request s.clients).1 ∧
      x.id ∈ (launch s.settings env s.request s.clients).2.1.filterMap Output.launched := launch_first hw
  have hns : x.state = .notStarted := beq_iff_eq.mp (List.mem_filter.mp (List.mem_of_mem_head? hw)).2
  unfold ProxyCore.startRequests
  rw [if_pos hs]
  refine ⟨⟨_, hmem, ClientTransaction.forwardRequest_id, ?_⟩, ?_⟩
  · rw [ClientTransaction.forwardRequest_launch_state hns, hf, if_pos hm]
    rfl
  · show x.id ∈ List.filterMap Output.launched (s.log ++ _)
    rw [List.filterMap_append]
    exact List.mem_append_right _ hid

/-- A redirect that is followed adds client transactions and leaves the core registered. -/
theorem handOver_rejected {r : Response} (hr : Reached s) (hc : s.taker r = some c)
    (hv : (c.processResponse s.settings env r).2 = .rejected) : (s.handOver env r c).registered = s.registered ∧
      (s.handOver env r c).nextId = s.nextId + (redirects s.settings r).length := by
  have hany : ((s.emit [.received r]).put (c.processResponse s.settings env r).1).clients.any (·.target == c.target) =
      true := taken_any hr hc
  unfold ProxyCore.handOver
  rw [hv]
  simp only [conclude, reportFinal_registered, reportFinal_nextId]
  split
  · rename_i hnil
    have hnone : redirects s.settings r = [] := hnil
    rw [hnone]
    exact ⟨rfl, rfl⟩
  · refine ⟨addClientTransactions_registered, ?_⟩
    unfold addClientTransactions
    rw [if_pos hany]
    exact congrArg (s.nextId + ·) length_newClients

/-- A launch of one target counts it. -/
theorem launch_count (hns : x.state = .notStarted) (ht : env.hasTransport x.id = true) : (launch k env req [x]).2.2 = 1 := by
  have hsent : (x.forwardRequest k env req).2 = true := (ClientTransaction.forwardRequest_launch_eq hns).2.trans ht
  unfold launch
  rw [if_pos hns]
  simp only [hsent, if_true, true_and]
  split <;> rfl

theorem Chased.launched (h : Chased n s) (hc : c ∈ s.all) : c.Launched := by
  have hlt : c.id < s.nextId := h.reached.keyed.fresh c hc
  obtain ⟨d, hd, hid, hl⟩ := h.once.launched c.id (h.started c.id (by rw [h.next] at hlt; omega))
  obtain rfl := h.reached.keyed.eq_of_id hd hc hid
  exact hl

/-- The redirect reaches the transaction that is being called. -/
theorem Chased.taker (h : Chased n s) (u : String) : ∃ c ∈ s.clients, s.taker (moved n u) = some c ∧ c.state = .calling := by
  obtain ⟨c, hc, rfl, hs⟩ := h.called
  refine ⟨c, hc, taker_eq_some.mpr ⟨h.registered, h.invite.symm, nofun, ?_⟩, hs⟩
  have haccepts : ∀ d ∈ s.clients, d.accepts (moved c.id u) = true ↔ d.id = c.id := fun d hd => by
    simp [ClientTransaction.accepts, moved, (h.launched (List.mem_append_left _ hd)).branch]
  obtain ⟨d, hd⟩ := Option.isSome_iff_exists.mp (List.find?_isSome.mpr ⟨c, hc, (haccepts c hc).mpr rfl⟩)
  have hmem := List.mem_of_find?_eq_some hd
  obtain rfl := h.reached.keyed.eq_of_id (List.mem_append_left _ hmem) (List.mem_append_left _ hc)
    ((haccepts d hmem).mp (List.find?_some hd))
  exact hd

theorem Chased.redirects (h : Chased n s) : redirects s.settings (moved n u) = [u] := by
  simp [ProxyCore.redirects, moved, h.follows]

theorem Chased.followed (h : Chased n s) : s.followed (redirect env n u) = [u] := by
  obtain ⟨c, -, hc, hs⟩ := h.taker u
  have hactive : c.isActive = true := ClientTransaction.isActive_iff.mpr (Or.inl hs)
  simp only [ProxyCore.followed, redirect, hc, hactive, if_true, h.redirects]

/-- The new target is the only one that waits. -/
theorem Chased.upcoming (h : Chased n s) : s.upcoming env (moved n u) = [.new env (n + 1) u] := by
  obtain ⟨c, hmem, hc, hs⟩ := h.taker u
  have hactive : c.isActive = true := ClientTransaction.isActive_iff.mpr (Or.inl hs)
  have hany : s.clients.any (·.target == c.target) = true := List.any_eq_true.mpr ⟨c, hmem, beq_self_eq_true _⟩
  have hnone : s.clients.filter (·.state == .notStarted) = [] := List.filter_eq_nil_iff.mpr fun d hd => by
    simpa using (h.launched (List.mem_append_left _ hd)).state
  unfold ProxyCore.upcoming
  rw [hc, h.redirects, h.next]
  simp only [hactive, if_true]
  refine List.perm_singleton.mp (((insertAfter_perm hany).filter _).trans (.of_eq ?_))
  rw [List.filter_append, hnone]
  rfl

/-- A target that answers with a redirect is followed by the one that it names. -/
theorem Chased.step (h : Chased n s) (hsent : env.Delivers) (u : String) :
    Chased (n + 1) (s.step (redirect env n u)) := by
  obtain ⟨c, hmem, hc, hs⟩ := h.taker u
  have hactive : c.isActive = true := ClientTransaction.isActive_iff.mpr (Or.inl hs)
  have hv : (c.processResponse s.settings env (moved n u)).2 = .rejected := by
    rw [processResponse_isActive hactive (taker_spec h.reached hc).2.2, ClientTransaction.processNewResponse_verdict]
    rfl
  have hne : (c.processResponse s.settings env (moved n u)).2 ≠ .answered := by
    rw [hv]
    simp
  let handed := s.handOver env (moved n u) c
  let pruned := handed.removeTerminated false
  have hstep : s.step (redirect env n u) = (pruned.startRequests env).1.finishSearch env := step_taken rfl hc
  have hconst : pruned.settings = s.settings ∧ pruned.request = s.request :=
    Chain.const ((chain_handOver (i := redirect env n u) rfl hc).tail .prune)
  have hsearch : pruned.searching = true := by
    rw [removeTerminated_searching, handOver_searching, h.searching, hv]
    rfl
  have hwaits : pruned.waiting.head? = some (.new env (n + 1) u) := by
    rw [waiting_removeTerminated, waiting_handOver h.reached hc hne, h.upcoming]
    rfl
  obtain ⟨hcalled, hstarted⟩ := startRequests_first hsearch hwaits (hconst.2 ▸ h.invite) (hsent.failsToSend _)
  have hstay : s.step (redirect env n u) = (pruned.startRequests env).1 := by
    obtain ⟨d, hd, -, hd'⟩ := hcalled
    rw [hstep, finishSearch_called ⟨d, hd, by simp [ClientTransaction.isCallingOrProceeding, hd']⟩]
  obtain ⟨hkept, hadded⟩ := handOver_rejected h.reached hc hv
  have hregistered : pruned.registered = true := by
    refine registered_removeTerminated (hkept.trans h.registered) (mem_clients_handOver_self hmem hne) ?_
    rw [processResponse_isActive hactive (taker_spec h.reached hc).2.2]
    refine beq_false_of_ne ?_
    rw [ClientTransaction.processNewResponse_state]
    simp [moved]
  constructor
  · exact step_reached h.reached _
  · exact step_once h.reached h.once _
  · rw [hstay, startRequests_searching]
    exact hsearch
  · rw [hstay, startRequests_registered]
    exact hregistered
  · rw [step_settings]
    exact h.follows
  · rw [step_request]
    exact h.invite
  · rw [hstay, startRequests_nextId, removeTerminated_nextId, hadded, h.redirects, h.next]
    rfl
  · intro id hid
    rcases Nat.le_succ_iff.mp hid with hid | rfl
    · rw [ProxyCore.started, step_log, List.filterMap_append]
      exact List.mem_append_left _ (h.started id hid)
    · rw [hstay]
      exact hstarted
  · rw [hstay]
    exact hcalled

/-- The first target is called. -/
theorem doProxy_chased (hfollow : k.followRedirects = true) (hinvite : req.method = .invite) (hmax : req.maxForwards ≠ some 0)
    (hsent : env.Delivers) (u : String) : Chased 0 (doProxy k env req [u]) := by
  let begun := addProxy k env req [u]
  have hwaits : begun.waiting.head? = some (.new env 0 u) := rfl
  obtain ⟨hcalled, hstarted⟩ := startRequests_first rfl hwaits hinvite (hsent.failsToSend _)
  have hcount : (begun.startRequests env).2 = 1 := launch_count rfl (hsent 0).1
  have hdo : doProxy k env req [u] = if k.fullResponse then (begun.startRequests env).1
      else (begun.startRequests env).1.emit [.api .done] := by
    unfold ProxyCore.doProxy
    dsimp only
    rw [if_neg hmax, if_neg (hcount ▸ Nat.one_ne_zero)]
  have hframe : (doProxy k env req [u]).clients = (begun.startRequests env).1.clients ∧
      (doProxy k env req [u]).nextId = 1 ∧ (doProxy k env req [u]).registered = true ∧
      (doProxy k env req [u]).searching = true ∧ 0 ∈ (doProxy k env req [u]).started := by
    rw [hdo]
    split
    · exact ⟨rfl, startRequests_nextId, startRequests_registered, startRequests_searching, hstarted⟩
    · refine ⟨rfl, startRequests_nextId, startRequests_registered, startRequests_searching, ?_⟩
      rw [ProxyCore.started, emit_log, List.filterMap_append]
      exact List.mem_append_left _ hstarted
  obtain ⟨hclients, hnext, hregistered, hsearching, hfirst⟩ := hframe
  constructor
  · exact doProxy_reached
  · exact doProxy_once
  · exact hsearching
  · exact hregistered
  · rw [doProxy_settings]
    exact hfollow
  · rw [doProxy_request]
    exact hinvite
  · exact hnext
  · intro id hid
    obtain rfl := Nat.le_zero.mp hid
    exact hfirst
  · rw [hclients]
    exact hcalled

/-- A chain of redirects starts everybody whom it names. -/
theorem Chased.run (hsent : env.Delivers) (us : List String) : ∀ {n : Nat} {s : ProxyCore}, Chased n s →
    Chased (n + us.length) (Machine.run ProxyCore.step s (redirected env n us)) ∧ s.named (redirected env n us) = us := by
  induction us with
  | nil => exact fun h => ⟨h, rfl⟩
  | cons u us ih =>
    intro n s h
    obtain ⟨hrun, hnamed⟩ := ih (h.step hsent u)
    refine ⟨?_, ?_⟩
    · rw [List.length_cons, Nat.add_comm us.length, ← Nat.add_assoc]
      exact hrun
    · show s.followed (redirect env n u) ++ _ = _
      rw [h.followed, hnamed]
      rfl

end

/-- In every run the targets are the destinations and the Contacts of the redirects that are followed, and each is
    started at most as often as it is named there. A chain of redirects, whomever they name, starts everybody as often
    as he is named. -/
theorem redirects_started_once (k : Settings) (env : Env) (req : Request) :
    (∀ (destinations : List String) (is : List Input),
      let s := doProxy k env req destinations
      (Machine.run step s is).targets.Perm (destinations ++ s.named is) ∧
        ∀ u, (Machine.run step s is).starts u ≤ (destinations ++ s.named is).count u) ∧
    (k.followRedirects = true → req.method = .invite → req.maxForwards ≠ some 0 → env.Delivers →
      ∀ (u₀ : String) (us : List String) (u : String),
        (Machine.run step (doProxy k env req [u₀]) (redirected env 0 us)).starts u = (u₀ :: us).count u) := by
  have hreached : ∀ (destinations : List String) (is : List Input),
    Reached (Machine.run step (doProxy k env req destinations) is) ∧
      Once (Machine.run step (doProxy k env req destinations) is) := fun destinations is =>
    Machine.run_invariant (I := fun s => Reached s ∧ Once s)
      (fun s i h => ⟨step_reached h.1 i, step_once h.1 h.2 i⟩) ⟨doProxy_reached, doProxy_once⟩
  have hnames : ∀ (destinations : List String) (is : List Input),
      (Machine.run step (doProxy k env req destinations) is).targets.Perm
        (destinations ++ (doProxy k env req destinations).named is) := fun destinations is => by
    have hrun := names_run is (s := doProxy k env req destinations) doProxy_reached
    rwa [Names, doProxy_targets] at hrun
  refine ⟨fun destinations is => ⟨hnames destinations is, fun u => ?_⟩, fun hfollow hinvite hmax hsent u₀ us u => ?_⟩
  · obtain ⟨hr, honce⟩ := hreached destinations is
    exact (honce.starts_le hr.keyed u).trans ((hnames destinations is).count_eq u).le
  · obtain ⟨hchased, hnamed⟩ := (doProxy_chased hfollow hinvite hmax hsent u₀).run hsent us
    have hperm := hnames [u₀] (redirected env 0 us)
    rw [hnamed] at hperm
    rw [hchased.once.starts_eq_count hchased.reached.keyed fun c hc => ?_]
    · exact hperm.count_eq u
    · have hlt := hchased.reached.keyed.fresh c hc
      rw [hchased.next] at hlt
      exact hchased.started c.id (Nat.lt_succ_iff.mp hlt)

/-- Two targets that redirect to each other. -/
theorem redirects_started_once_mutual :
    let k : Settings := { launchType := .serial, followRedirects := true }
    let s := Machine.run step (doProxy k .reliable { method := .invite } ["sip:a.example.org"])
      (redirected .reliable 0 ["sip:b.example.org", "sip:a.example.org", "sip:b.example.org"])
    s.starts "sip:a.example.org" = 2 ∧ s.starts "sip:b.example.org" = 2 :=
  have hchain := (redirects_started_once { launchType := .serial, followRedirects := true } .reliable { method := .invite }).2
    rfl rfl nofun (fun _ => ⟨rfl, rfl⟩) "sip:a.example.org" ["sip:b.example.org", "sip:a.example.org", "sip:b.example.org"]
  ⟨hchain _, hchain _⟩

/-- A target that redirects to itself is started again. -/
theorem redirect_to_itself :
    let k : Settings := { launchType := .serial, followRedirects := true }
    let s := Machine.run step (doProxy k .reliable { method := .invite } ["sip:a.example.org"])
      [redirect .reliable 0 "sip:a.example.org"]
    s.starts "sip:a.example.org" = 2 ∧ 1 < s.all.length := by
  decide

end Drachtio.Proxy
