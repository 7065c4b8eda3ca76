import Drachtio.Theorems.Proxy.Kinds
import Drachtio.Theorems.Proxy.Writes

/-! Who is started next. The targets that wait are started in the order of the vector; in serial mode the first one
    with a transport ends the loop, also when sending on it fails. -/

namespace Drachtio.Proxy
open ProxyCore

/-- The client transactions of the vector that are not started. -/
def ProxyCore.waiting (s : ProxyCore) : List ClientTransaction := s.clients.filter (·.state == .notStarted)

/-- Those not started once a response was handed over: redirect targets that the core follows wait behind the
    transaction that was redirected. -/
def ProxyCore.upcoming (env : Env) (r : Response) (s : ProxyCore) : List ClientTransaction :=
  match s.taker r with
  | some c =>
    if c.isActive then
      (insertAfter c.target (newClients env s.nextId (redirects s.settings r)) s.clients).filter (·.state == .notStarted)
    else s.waiting
  | none => s.waiting

section
variable {s : ProxyCore} {c d : ClientTransaction} {env : Env} {r : Response} {k : Settings} {req : Request}
  {l : List ClientTransaction}

/-! ### The targets that wait -/

theorem insertAfter_nil {target : String} : ∀ l : List ClientTransaction, insertAfter target [] l = l
  | [] => rfl
  | c :: l => by
    unfold insertAfter
    rw [insertAfter_nil l]
    split <;> rfl

/-- A change to a client transaction that is not picked, before or after, does not change who is picked. -/
theorem filter_cons_map {p : ClientTransaction → Bool} {g : ClientTransaction → ClientTransaction}
    {m : List ClientTransaction} (hd : g d = d ∨ p (g d) = false ∧ p d = false) (hm : m.filter p = l.filter p) :
    (g d :: m).filter p = (d :: l).filter p := by
  rcases hd with hd | ⟨h₁, h₂⟩
  · rw [hd, List.filter_cons, List.filter_cons, hm]
  · rw [List.filter_cons_of_neg (by simp [h₁]), List.filter_cons_of_neg (by simp [h₂]), hm]

theorem filter_map_same {p : ClientTransaction → Bool} {g : ClientTransaction → ClientTransaction}
    (h : ∀ d ∈ l, g d = d ∨ p (g d) = false ∧ p d = false) : (l.map g).filter p = l.filter p := by
  induction l with
  | nil => rfl
  | cons d l ih => exact filter_cons_map (h d List.mem_cons_self) (ih fun e he => h e (List.mem_cons_of_mem _ he))

/-- The same after an insertion, which looks at the targets. -/
theorem filter_insertAfter_map {p : ClientTransaction → Bool} {g : ClientTransaction → ClientTransaction} {target : String}
    {added : List ClientTransaction} (ht : ∀ d ∈ l, (g d).target = d.target)
    (h : ∀ d ∈ l, g d = d ∨ p (g d) = false ∧ p d = false) :
    (insertAfter target added (l.map g)).filter p = (insertAfter target added l).filter p := by
  induction l with
  | nil => rfl
  | cons d l ih =>
    have hl := fun e he => h e (List.mem_cons_of_mem d he)
    simp only [List.map_cons, insertAfter, ht d List.mem_cons_self]
    split
    · refine filter_cons_map (h d List.mem_cons_self) ?_
      rw [List.filter_append, List.filter_append, filter_map_same hl]
    · exact filter_cons_map (h d List.mem_cons_self) (ih (fun e he => ht e (List.mem_cons_of_mem _ he)) hl)

theorem waiting_removeTerminated : (s.removeTerminated false).waiting = s.waiting := by
  simp only [waiting, removeTerminated, List.filter_filter]
  refine List.filter_congr fun c _ => ?_
  cases hs : c.state <;> simp [ClientTransaction.isTerminated, hs]

/-- The transaction that takes a response does not wait, before or after. -/
theorem taken_replaced (hr : Reached s) (hc : s.taker r = some c) (hd : d ∈ s.clients) :
    let g := fun d : ClientTransaction => if d.id = c.id then (c.processResponse k env r).1.1 else d
    (g d).target = d.target ∧ (g d = d ∨ ((g d).state == .notStarted) = false ∧ (d.state == .notStarted) = false) := by
  obtain ⟨hmem, hl, -⟩ := taker_spec hr hc
  intro g
  by_cases hid : d.id = c.id
  · obtain rfl := hr.keyed.eq_of_id (List.mem_append_left _ hd) (List.mem_append_left _ hmem) hid
    have hg : g d = (d.processResponse k env r).1.1 := if_pos rfl
    rw [hg]
    refine ⟨ClientTransaction.processResponse_kept.target, Or.inr ⟨?_, ?_⟩⟩
    · simpa using ClientTransaction.processResponse_started hl.state
    · simpa using hl.state
  · have hg : g d = d := if_neg hid
    rw [hg]
    exact ⟨rfl, Or.inl rfl⟩

/-- An active transaction takes every response to its request as a new one. -/
theorem processResponse_isActive (ha : c.isActive = true) (hm : c.method = r.method) :
    c.processResponse k env r = c.processNewResponse k r := by
  have hst := ClientTransaction.isActive_iff.mp ha
  refine ClientTransaction.processResponse_new ?_ ?_ hm ?_
  · rcases hst with h | h | h <;> simp [h]
  · by_contra hl
    have hcomp := (ClientTransaction.isLate_iff.mp (by simpa using hl)).2.1
    rcases hst with h | h | h <;> simp [h] at hcomp
  · rintro ⟨hcomp, -⟩
    rcases hst with h | h | h <;> simp [h] at hcomp

/-- Only an active transaction is rejected. -/
theorem verdict_rejected (hl : c.Launched) (h : (c.processResponse k env r).2 = .rejected) :
    c.isActive = true ∧ 300 ≤ r.status := by
  obtain ⟨hterm, -, hrep, hnew⟩ := ClientTransaction.processResponse_taken (by rw [h]; simp)
  rw [hnew, ClientTransaction.processNewResponse_verdict] at h
  have hst : 300 ≤ r.status := by
    by_contra hlt
    rw [if_neg hlt] at h
    split at h
    · cases h
    · split at h <;> cases h
  refine ⟨ClientTransaction.isActive_iff.mpr ?_, hst⟩
  have hns := hl.state
  cases hs : c.state with
  | notStarted => exact absurd hs hns
  | terminated => exact absurd hs hterm
  | completed => exact absurd ⟨hs, by omega⟩ hrep
  | calling => simp
  | trying => simp
  | proceeding => simp

theorem rejected_of_active (ha : c.isActive = true) (hm : c.method = r.method) (hst : 300 ≤ r.status) :
    (c.processResponse k env r).2 = .rejected := by
  rw [processResponse_isActive ha hm, ClientTransaction.processNewResponse_verdict, if_neg (by omega), if_neg (by omega),
    if_pos hst]

/-- Redirects are followed for a rejected transaction only, which was active. -/
theorem redirects_of_not_rejected (hm : c.method = r.method) (hv : (c.processResponse k env r).2 ≠ .rejected) :
    (if c.isActive then redirects k r else []) = [] := by
  split
  · rename_i ha
    exact if_neg fun h => hv (rejected_of_active ha hm h.1)
  · rfl

/-- The vector once a response was handed over: the taker is changed, and redirect targets wait behind it. -/
theorem handOver_clients (hr : Reached s) (hc : s.taker r = some c)
    (hv : (c.processResponse s.settings env r).2 ≠ .answered) : (s.handOver env r c).clients =
      insertAfter c.target (newClients env s.nextId (if c.isActive then redirects s.settings r else []))
        (s.clients.map fun d => if d.id = c.id then (c.processResponse s.settings env r).1.1 else d) := by
  obtain ⟨hmem, hl, hm⟩ := taker_spec hr hc
  have hput : ((s.emit [.received r]).put (c.processResponse s.settings env r).1).clients =
      s.clients.map fun d => if d.id = c.id then (c.processResponse s.settings env r).1.1 else d := by
    simp only [put, ClientTransaction.processResponse_id]
    rfl
  have same : (c.processResponse s.settings env r).2 ≠ .rejected → s.clients.map (fun d =>
      if d.id = c.id then (c.processResponse s.settings env r).1.1 else d) = insertAfter c.target (newClients env s.nextId
        (if c.isActive then redirects s.settings r else [])) (s.clients.map fun d =>
          if d.id = c.id then (c.processResponse s.settings env r).1.1 else d) := fun hne => by
    rw [redirects_of_not_rejected hm hne]
    exact (insertAfter_nil _).symm
  unfold ProxyCore.handOver
  cases hverdict : (c.processResponse s.settings env r).2 with
  | discard => exact hput.trans (same (by simp [hverdict]))
  | forward =>
    rw [ProxyCore.conclude, forwardResponse_clients]
    exact hput.trans (same (by simp [hverdict]))
  | answered => exact absurd hverdict hv
  | rejected =>
    rw [if_pos (verdict_rejected hl hverdict).1]
    dsimp only [ProxyCore.conclude]
    rw [reportFinal_clients]
    split
    · rename_i hnil
      rw [put_settings, emit_settings] at hnil
      rw [hput, hnil]
      exact (insertAfter_nil _).symm
    · unfold addClientTransactions
      rw [hput]
      have hany : (s.clients.map fun d => if d.id = c.id then (c.processResponse s.settings env r).1.1 else d).any
          (·.target == c.target) = true := by
        rw [List.any_map, List.any_eq_true]
        refine ⟨c, hmem, ?_⟩
        simp [ClientTransaction.processResponse_kept.target]
      rw [if_pos hany]
      rfl

theorem waiting_handOver (hr : Reached s) (hc : s.taker r = some c)
    (hv : (c.processResponse s.settings env r).2 ≠ .answered) : (s.handOver env r c).waiting = s.upcoming env r := by
  unfold ProxyCore.waiting ProxyCore.upcoming
  rw [handOver_clients hr hc hv, filter_insertAfter_map (fun d hd => (taken_replaced hr hc hd).1) fun d hd =>
    (taken_replaced hr hc hd).2, hc]
  dsimp only
  split
  · rfl
  · exact congrArg _ (insertAfter_nil _)

/-! ### The loop of startRequests -/

/-- Whoever is in the vector after the loop was there before, or was launched just now. -/
theorem mem_launch_cases (hd : d ∈ (launch k env req l).1) :
    d ∈ l ∨ ∃ c ∈ l, c.state = .notStarted ∧ d = (c.forwardRequest k env req).1.1 := by
  induction l with
  | nil => cases hd
  | cons c l ih =>
    unfold launch at hd
    split at hd
    · rename_i hs
      dsimp only at hd
      split at hd
      · rcases List.mem_cons.mp hd with rfl | hd
        · exact Or.inr ⟨c, List.mem_cons_self, hs, rfl⟩
        · exact Or.inl (List.mem_cons_of_mem _ hd)
      · rcases List.mem_cons.mp hd with rfl | hd
        · exact Or.inr ⟨c, List.mem_cons_self, hs, rfl⟩
        · rcases ih hd with hd | ⟨e, he, hes, rfl⟩
          · exact Or.inl (List.mem_cons_of_mem _ hd)
          · exact Or.inr ⟨e, List.mem_cons_of_mem _ he, hes, rfl⟩
    · rcases List.mem_cons.mp hd with rfl | hd
      · exact Or.inl List.mem_cons_self
      · rcases ih hd with hd | ⟨e, he, hes, rfl⟩
        · exact Or.inl (List.mem_cons_of_mem _ hd)
        · exact Or.inr ⟨e, List.mem_cons_of_mem _ he, hes, rfl⟩

theorem launched_started (hs : c.state = .notStarted) : (c.forwardRequest k env req).1.1.state ≠ .notStarted :=
  (ClientTransaction.forwardRequest_launch hs).2.2

/-- A simultaneous launch starts everyone. -/
theorem launch_simultaneous (hk : k.launchType ≠ .serial) (hd : d ∈ (launch k env req l).1) : d.state ≠ .notStarted := by
  induction l with
  | nil => cases hd
  | cons c l ih =>
    unfold launch at hd
    split at hd
    · rename_i hs
      dsimp only at hd
      rw [if_neg fun h => hk h.2] at hd
      rcases List.mem_cons.mp hd with rfl | hd
      · exact launched_started hs
      · exact ih hd
    · rename_i hs
      rcases List.mem_cons.mp hd with rfl | hd
      · exact hs
      · exact ih hd

/-- A launch counts as sent if there is a transport. -/
theorem launched_counts (hs : c.state = .notStarted) : (c.forwardRequest k env req).2 = env.hasTransport c.id :=
  (ClientTransaction.forwardRequest_launch_eq hs).2

theorem not_failing (h : env.hasTransport c.id = false) : c.failsToSend env = false := by
  simp [ClientTransaction.failsToSend, h]

theorem launched_active (hs : c.state = .notStarted) (hf : c.failsToSend env = false) :
    (c.forwardRequest k env req).1.1.isActive = true := by
  rw [ClientTransaction.isActive_iff, ClientTransaction.forwardRequest_launch_state hs, hf]
  by_cases hm : req.method = .invite
  · simp [hm]
  · simp [hm]

theorem launched_calling (hs : c.state = .notStarted) (hf : c.failsToSend env = false) (hi : req.method = .invite) :
    (c.forwardRequest k env req).1.1.isCallingOrProceeding = true := by
  have hst : (c.forwardRequest k env req).1.1.state = _ := ClientTransaction.forwardRequest_launch_state hs
  rw [hf, if_neg Bool.false_ne_true, if_pos hi] at hst
  simp [ClientTransaction.isCallingOrProceeding, hst]

theorem filter_cons_waiting (hs : c.state = .notStarted) :
    (c :: l).filter (·.state == .notStarted) = c :: l.filter (·.state == .notStarted) :=
  List.filter_cons_of_pos (by simp [hs])

theorem filter_cons_started (hs : c.state ≠ .notStarted) :
    (c :: l).filter (·.state == .notStarted) = l.filter (·.state == .notStarted) :=
  List.filter_cons_of_neg (by simp [hs])

/-- If an INVITE is launched, nobody is being called afterwards and somebody still waits, the first one that waited
    failed to be sent and was not the only one. -/
theorem launch_stuck (hi : req.method = .invite) (hd : d ∈ (launch k env req l).1) (hs : d.state = .notStarted)
    (hex : ∀ e ∈ (launch k env req l).1, e.isCallingOrProceeding = false) : k.launchType = .serial ∧
      2 ≤ (l.filter (·.state == .notStarted)).length ∧
      ∃ c ∈ (l.filter (·.state == .notStarted)).head?, c.failsToSend env = true := by
  have hser : k.launchType = .serial := by
    by_contra hk
    exact launch_simultaneous hk hd hs
  refine ⟨hser, ?_⟩
  induction l with
  | nil => cases hd
  | cons c l ih =>
    by_cases hc : c.state = .notStarted
    · rw [filter_cons_waiting hc]
      unfold launch at hd hex
      rw [if_pos hc] at hd hex
      dsimp only at hd hex
      split at hd
      · rename_i hsent
        rw [if_pos hsent] at hex
        have hfail : c.failsToSend env = true := by
          by_contra hf
          have hcal := hex _ List.mem_cons_self
          rw [launched_calling hc (by simpa using hf) hi] at hcal
          cases hcal
        have hdl : d ∈ l.filter (·.state == .notStarted) := by
          rcases List.mem_cons.mp hd with rfl | hd
          · exact absurd hs (launched_started hc)
          · exact List.mem_filter.mpr ⟨hd, by simp [hs]⟩
        have hpos := List.length_pos_of_mem hdl
        exact ⟨by rw [List.length_cons]; omega, c, rfl, hfail⟩
      · rename_i hsent
        -- Without a transport the transaction is left in calling.
        rw [if_neg hsent] at hex
        have hcal := hex _ List.mem_cons_self
        rw [launched_calling hc ?_ hi] at hcal
        · cases hcal
        · exact not_failing (by simpa [hser, launched_counts hc] using hsent)
    · rw [filter_cons_started hc]
      unfold launch at hd hex
      rw [if_neg hc] at hd hex
      have hdl : d ∈ (launch k env req l).1 := by
        rcases List.mem_cons.mp hd with rfl | hd
        · exact absurd hs hc
        · exact hd
      exact ih hdl fun e he => hex e (List.mem_cons_of_mem _ he)

theorem launched_failing (hs : c.state = .notStarted) (hf : c.failsToSend env = true) :
    (c.forwardRequest k env req).1.1.state = .terminated := by
  rw [ClientTransaction.forwardRequest_launch_state hs, if_pos hf]

/-- If only one waits, it is started. -/
theorem launch_single (hone : (l.filter (·.state == .notStarted)).length ≤ 1) (hd : d ∈ (launch k env req l).1) :
    d.state ≠ .notStarted := by
  induction l with
  | nil => cases hd
  | cons c l ih =>
    unfold launch at hd
    by_cases hc : c.state = .notStarted
    · rw [filter_cons_waiting hc, List.length_cons] at hone
      have hnil : l.filter (·.state == .notStarted) = [] := List.length_eq_zero_iff.mp (by omega)
      rw [if_pos hc] at hd
      dsimp only at hd
      split at hd
      · rcases List.mem_cons.mp hd with rfl | hd
        · exact launched_started hc
        · simpa using List.filter_eq_nil_iff.mp hnil d hd
      · rcases List.mem_cons.mp hd with rfl | hd
        · exact launched_started hc
        · exact ih (by omega) hd
    · rw [filter_cons_started hc] at hone
      rw [if_neg hc] at hd
      rcases List.mem_cons.mp hd with rfl | hd
      · exact hc
      · exact ih hone hd

/-- If everyone who waits fails to be sent, and there is only one in serial mode, nobody is left. -/
theorem launch_failed (hfail : ∀ c ∈ l.filter (·.state == .notStarted), c.failsToSend env = true)
    (hone : k.launchType = .serial → (l.filter (·.state == .notStarted)).length ≤ 1) (hd : d ∈ (launch k env req l).1) :
    d ∈ l ∧ d.state ≠ .notStarted ∨ d.state = .terminated := by
  have hns : d.state ≠ .notStarted := by
    by_cases hk : k.launchType = .serial
    · exact launch_single (hone hk) hd
    · exact launch_simultaneous hk hd
  rcases mem_launch_cases hd with hl | ⟨c, hc, hs, rfl⟩
  · exact Or.inl ⟨hl, hns⟩
  · exact Or.inr (launched_failing hs (hfail c (List.mem_filter.mpr ⟨hc, by simp [hs]⟩)))

/-- In serial mode nobody is started: there is nobody, or sending to the first one fails. -/
def NoneStarted (env : Env) (l : List ClientTransaction) : Prop := ∀ c ∈ l.head?, c.failsToSend env = true

/-- In serial mode one is started at most: the first one has a transport, or sending to the second one fails. -/
def OneStarted (env : Env) (l : List ClientTransaction) : Prop :=
  ∀ c ∈ l.head?, env.hasTransport c.id = true ∨ NoneStarted env l.tail

theorem launch_none (hk : k.launchType = .serial) (h : NoneStarted env (l.filter (·.state == .notStarted)))
    (hd : d ∈ (launch k env req l).1) (ha : d.isActive = true) : d ∈ l := by
  induction l with
  | nil => cases hd
  | cons c l ih =>
    unfold launch at hd
    by_cases hc : c.state = .notStarted
    · rw [filter_cons_waiting hc] at h
      have hf : c.failsToSend env = true := h c rfl
      have ht : env.hasTransport c.id = true := (ClientTransaction.failsToSend_iff.mp hf).1
      rw [if_pos hc] at hd
      dsimp only at hd
      rw [if_pos ⟨launched_counts hc ▸ ht, hk⟩] at hd
      rcases List.mem_cons.mp hd with rfl | hd
      · rw [ClientTransaction.isActive_iff, launched_failing hc hf] at ha
        simp at ha
      · exact List.mem_cons_of_mem _ hd
    · rw [filter_cons_started hc] at h
      rw [if_neg hc] at hd
      rcases List.mem_cons.mp hd with rfl | hd
      · exact List.mem_cons_self
      · exact List.mem_cons_of_mem _ (ih h hd)

theorem launch_one (hk : k.launchType = .serial) (h : OneStarted env (l.filter (·.state == .notStarted))) :
    ∃ j, ∀ d ∈ (launch k env req l).1, d.isActive = true → d ∈ l ∨ d.id = j := by
  induction l with
  | nil => exact ⟨0, fun d hd => by cases hd⟩
  | cons c l ih =>
    unfold launch
    by_cases hc : c.state = .notStarted
    · rw [filter_cons_waiting hc] at h
      refine ⟨c.id, fun d hd ha => ?_⟩
      rw [if_pos hc] at hd
      dsimp only at hd
      split at hd
      · rcases List.mem_cons.mp hd with rfl | hd
        · exact Or.inr (by simp)
        · exact Or.inl (List.mem_cons_of_mem _ hd)
      · rename_i hsent
        rcases List.mem_cons.mp hd with rfl | hd
        · exact Or.inr (by simp)
        · have hnone : NoneStarted env (l.filter (·.state == .notStarted)) :=
            (h c rfl).resolve_left fun ht => hsent ⟨launched_counts hc ▸ ht, hk⟩
          exact Or.inl (List.mem_cons_of_mem _ (launch_none hk hnone hd ha))
    · rw [filter_cons_started hc] at h
      obtain ⟨j, hj⟩ := ih h
      refine ⟨j, fun d hd ha => ?_⟩
      rw [if_neg hc] at hd
      rcases List.mem_cons.mp hd with rfl | hd
      · exact Or.inl List.mem_cons_self
      · exact (hj d hd ha).imp_left (List.mem_cons_of_mem _)

end

/-! ### Runs -/

/-- What holds in every state of every run, with those that left the vector and the kinds of transactions. -/
structure Surveyed (s : ProxyCore) : Prop extends Reached s where
  parted : Parted s
  kinds : ∀ c ∈ s.all, c.Dormant ∨ c.Launched ∧ OfKind c

section
variable {s : ProxyCore} {c d : ClientTransaction} {env : Env}

theorem step_surveyed (h : Surveyed s) (i : Input) : Surveyed (s.step i) where
  toReached := step_reached h.toReached i
  parted := step_parted h.toReached h.parted i
  kinds := (closed_kinds.tracks h.kinds).clients

theorem doProxy_surveyed {k : Settings} {env : Env} {req : Request} {destinations : List String} :
    Surveyed (doProxy k env req destinations) where
  toReached := doProxy_reached
  parted := doProxy_parted
  kinds := launches_kinds.doProxy.clients

/-! ### Timers -/

/-- The timers of INVITE transactions run for an INVITE only. -/
theorem fired_invite {n : TimerName} {id : Nat} (h : Surveyed s) (hc : s.firing n id = some c) (hn : n.ofInvite = true) :
    c.Launched ∧ s.request.method = .invite := by
  obtain ⟨hmem, -, harm⟩ := firing_spec hc
  rcases h.kinds c hmem with hd | ⟨hl, hk⟩
  · simp [hd.not_armed] at harm
  · refine ⟨hl, ?_⟩
    have hi := hk.timers n harm
    rw [hn, ClientTransaction.isInviteTransaction] at hi
    rcases h.typed c hmem with hd | ⟨-, hm⟩
    · exact absurd hl.branch (by simp [hd.branch])
    · rw [← hm]
      simpa using hi.symm

theorem not_trying (h : Surveyed s) (hm : s.request.method = .invite) (hd : d ∈ s.all) : d.state ≠ .trying := by
  intro hs
  rcases h.kinds d hd with hdorm | ⟨hl, hk⟩
  · rcases hdorm.state with hst | hst <;> rw [hst] at hs <;> cases hs
  · have hi := hk.trying hs
    rcases h.typed d hd with hdorm | ⟨-, hmeth⟩
    · exact absurd hl.branch (by simp [hdorm.branch])
    · simp [ClientTransaction.isInviteTransaction, hmeth, hm] at hi

/-- The transactions of the vector once a timer has fired: its own is done. -/
theorem mem_clients_fired {n : TimerName} {id : Nat} (h : Surveyed s) (hc : s.firing n id = some c)
    (hn : n = .timerB ∨ n = .timerC ∨ n = .timerProvisional)
    (hd : d ∈ ((s.emit [.timerFired n c.id]).put (c.timerFires s.settings env s.request n)).clients) :
    d.isDone = true ∨ d ∈ s.clients ∧ d.id ≠ c.id := by
  obtain ⟨hl, -⟩ := fired_invite h hc (by rcases hn with rfl | rfl | rfl <;> rfl)
  obtain ⟨e, he, rfl⟩ := List.mem_map.mp hd
  split
  · refine Or.inl (ClientTransaction.isDone_iff.mpr ?_)
    rw [ClientTransaction.timerFires_state hl.state]
    rcases hn with rfl | rfl | rfl <;> simp
  · rename_i hne
    exact Or.inr ⟨he, by simpa using hne⟩

theorem waiting_fired {n : TimerName} {id : Nat} (hr : Reached s) (hc : s.firing n id = some c) (hl : c.Launched) :
    ((s.emit [.timerFired n c.id]).put (c.timerFires s.settings env s.request n)).waiting = s.waiting := by
  refine filter_map_same fun d hd => ?_
  rw [ClientTransaction.timerFires_id]
  by_cases hid : d.id = c.id
  · obtain rfl := hr.keyed.eq_of_id (List.mem_append_left _ hd) (firing_spec hc).1 hid
    rw [if_pos rfl]
    refine Or.inr ⟨?_, by simpa using hl.state⟩
    simpa using ClientTransaction.timerFires_started hl.state n
  · rw [if_neg hid]
    exact Or.inl rfl

end

end Drachtio.Proxy
