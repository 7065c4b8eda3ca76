import Drachtio.Theorems.Proxy.Rseq
import Drachtio.Theorems.Proxy.States

/-! Client transactions in the vector: which operation leaves one where it is, and where those come from that an
    operation leaves. -/

namespace Drachtio.Proxy
open ProxyCore

section
variable {s : ProxyCore} {c d : ClientTransaction} {env : Env} {r : Response}

theorem exhausted_eq_false : s.exhaustedAllTargets = false ↔ ∃ c ∈ s.clients, c.isCallingOrProceeding = true := by
  simp [exhaustedAllTargets]

theorem exhausted_eq_true : s.exhaustedAllTargets = true ↔ ∀ c ∈ s.clients, c.isCallingOrProceeding = false := by
  simp [exhaustedAllTargets]

/-! ### Those that stay -/

theorem mem_clients_put {x : ClientTransaction × List Output} (hd : d ∈ s.clients) (hne : d.id ≠ x.1.id) :
    d ∈ (s.put x).clients := by
  refine List.mem_map.mpr ⟨d, hd, ?_⟩
  rw [if_neg hne]

theorem mem_clients_put_self {x : ClientTransaction × List Output} (hc : c ∈ s.clients) (hid : x.1.id = c.id) :
    x.1 ∈ (s.put x).clients := by
  refine List.mem_map.mpr ⟨c, hc, ?_⟩
  rw [if_pos hid.symm]

theorem mem_clients_removeTerminated (hd : d ∈ s.clients) (hs : d.state ≠ .terminated) :
    d ∈ (s.removeTerminated false).clients := by
  refine List.mem_filter.mpr ⟨hd, ?_⟩
  simpa [ClientTransaction.isTerminated] using hs

/-- A transaction that is being called stays even when those not started are removed. -/
theorem mem_clients_removeTerminated_active {b : Bool} (hd : d ∈ s.clients) (hs : d.isCallingOrProceeding = true) :
    d ∈ (s.removeTerminated b).clients := by
  refine List.mem_filter.mpr ⟨hd, ?_⟩
  have hst : d.state = .calling ∨ d.state = .proceeding := by simpa [ClientTransaction.isCallingOrProceeding] using hs
  rcases hst with hst | hst <;> cases b <;>
    simp [ClientTransaction.isTerminated, ClientTransaction.isTerminatedOrNotStarted, hst]

theorem mem_launch {k : Settings} {req : Request} {l : List ClientTransaction} (hd : d ∈ l) (hs : d.state ≠ .notStarted) :
    d ∈ (launch k env req l).1 := by
  induction l with
  | nil => cases hd
  | cons c l ih =>
    unfold launch
    split
    · rename_i hc
      have hd' : d ∈ l := (List.mem_cons.mp hd).resolve_left fun e => hs (e ▸ hc)
      dsimp only
      split
      · exact List.mem_cons_of_mem _ hd'
      · exact List.mem_cons_of_mem _ (ih hd')
    · rcases List.mem_cons.mp hd with rfl | hd
      · exact List.mem_cons_self
      · exact List.mem_cons_of_mem _ (ih hd)

theorem mem_clients_startRequests (hd : d ∈ s.clients) (hs : d.state ≠ .notStarted) :
    d ∈ (s.startRequests env).1.clients := by
  unfold ProxyCore.startRequests
  split
  · exact mem_launch hd hs
  · exact hd

theorem mem_insertAfter_of_mem {target : String} {added l : List ClientTransaction} (hd : d ∈ l) :
    d ∈ insertAfter target added l := by
  induction l with
  | nil => cases hd
  | cons c l ih =>
    unfold insertAfter
    split
    · simp only [List.mem_cons, List.mem_append]
      exact (List.mem_cons.mp hd).imp_right Or.inr
    · rcases List.mem_cons.mp hd with rfl | hd
      · exact List.mem_cons_self
      · exact List.mem_cons_of_mem _ (ih hd)

theorem mem_clients_addClientTransactions {added : List ClientTransaction} {target : String} (hd : d ∈ s.clients) :
    d ∈ (s.addClientTransactions added target).clients := by
  unfold addClientTransactions
  split
  · exact mem_insertAfter_of_mem hd
  · exact hd

@[simp] theorem reportFinal_clients : (s.reportFinal r).clients = s.clients := by
  unfold ProxyCore.reportFinal
  split <;> rfl

@[simp] theorem reportFinal_gone : (s.reportFinal r).gone = s.gone := by
  unfold ProxyCore.reportFinal
  split <;> rfl

@[simp] theorem reportFinal_nextId : (s.reportFinal r).nextId = s.nextId := by
  unfold ProxyCore.reportFinal
  split <;> rfl

@[simp] theorem reportFinal_searching : (s.reportFinal r).searching = s.searching := by
  unfold ProxyCore.reportFinal
  split <;> rfl

@[simp] theorem addClientTransactions_searching {added : List ClientTransaction} {target : String} :
    (s.addClientTransactions added target).searching = s.searching := by
  unfold addClientTransactions
  split <;> rfl

theorem registered_removeTerminated (hreg : s.registered = true) (hd : d ∈ s.clients) (hs : d.isTerminated = false) :
    (s.removeTerminated false).registered = true := by
  have hleft : d ∈ (s.removeTerminated false).clients := mem_clients_removeTerminated hd (by
    simpa [ClientTransaction.isTerminated] using hs)
  have hne : (s.removeTerminated false).clients ≠ [] := List.ne_nil_of_mem hleft
  show (s.registered && !(s.removeTerminated false).clients.isEmpty) = true
  simp [hreg, hne]

@[simp] theorem startRequests_registered : (s.startRequests env).1.registered = s.registered := by
  unfold ProxyCore.startRequests
  split <;> rfl

@[simp] theorem reportFinal_registered : (s.reportFinal r).registered = s.registered := by
  unfold ProxyCore.reportFinal
  split <;> rfl

@[simp] theorem addClientTransactions_registered {added : List ClientTransaction} {target : String} :
    (s.addClientTransactions added target).registered = s.registered := by
  unfold addClientTransactions
  split <;> rfl

/-- While somebody is being called the search goes on. -/
theorem finishSearch_called (h : ∃ c ∈ s.clients, c.isCallingOrProceeding = true) : s.finishSearch env = s := by
  simp [finishSearch, exhausted_eq_false.mpr h]

/-! ### A response -/

theorem taker_spec (hr : Reached s) (hc : s.taker r = some c) : c ∈ s.clients ∧ c.Launched ∧ c.method = r.method := by
  obtain ⟨-, hm, hp, hf⟩ := taker_eq_some.mp hc
  have hmem := List.mem_of_find?_eq_some hf
  refine ⟨hmem, ?_⟩
  rcases hr.typed c (List.mem_append_left _ hmem) with hd | ⟨hl, hcm⟩
  · have := List.find?_some hf
    simp [hd.not_accepts hp] at this
  · exact ⟨hl, by rw [hcm, hm]⟩

theorem mem_clients_conclude {target : String} {v : ClientTransaction.Verdict} (hd : d ∈ s.clients) (hv : v ≠ .answered) :
    d ∈ (s.conclude env r target v).clients := by
  cases v with
  | discard => exact hd
  | forward => simpa [conclude] using hd
  | answered => exact absurd rfl hv
  | rejected =>
    simp only [conclude, reportFinal_clients]
    split
    · exact hd
    · exact mem_clients_addClientTransactions hd

theorem conclude_searching {target : String} {v : ClientTransaction.Verdict} :
    (s.conclude env r target v).searching = (s.searching && v != .answered) := by
  cases v with
  | discard => simp [conclude]
  | forward => simp [conclude]
  | answered => simp [conclude, notifyForwarded200OK]
  | rejected =>
    simp only [conclude, reportFinal_searching]
    split <;> simp

theorem handOver_searching : (s.handOver env r c).searching =
    (s.searching && (c.processResponse s.settings env r).2 != .answered) := conclude_searching

theorem mem_clients_handOver (hd : d ∈ s.clients) (hne : d.id ≠ c.id)
    (hv : (c.processResponse s.settings env r).2 ≠ .answered) : d ∈ (s.handOver env r c).clients := by
  have hput : d ∈ ((s.emit [.received r]).put (c.processResponse s.settings env r).1).clients :=
    mem_clients_put hd (by simpa using hne)
  exact mem_clients_conclude hput hv

theorem mem_clients_handOver_self (hc : c ∈ s.clients) (hv : (c.processResponse s.settings env r).2 ≠ .answered) :
    (c.processResponse s.settings env r).1.1 ∈ (s.handOver env r c).clients := by
  have hput : (c.processResponse s.settings env r).1.1 ∈
      ((s.emit [.received r]).put (c.processResponse s.settings env r).1).clients := mem_clients_put_self hc (by simp)
  exact mem_clients_conclude hput hv

@[simp] theorem relaunch_searching : (s.relaunch env r).searching = s.searching := by
  unfold ProxyCore.relaunch
  split <;> simp

theorem mem_clients_relaunch (hd : d ∈ s.clients) (hs : d.isCallingOrProceeding = true) :
    d ∈ (s.relaunch env r).clients := by
  have hd' : d ∈ (s.removeTerminated false).clients := mem_clients_removeTerminated_active hd hs
  unfold ProxyCore.relaunch
  split
  · refine mem_clients_startRequests hd' ?_
    rintro hst
    simp [ClientTransaction.isCallingOrProceeding, hst] at hs
  · exact hd'

end

/-! ### Those that left the vector -/

/-- A transaction outside the vector is not active, and while the search goes on it is done. -/
structure Parted (s : ProxyCore) : Prop where
  gone : ∀ c ∈ s.gone, c.isActive = false
  done : s.searching = true → ∀ c ∈ s.gone, c.isDone = true

section
variable {s₀ s t : ProxyCore} {i : Input} {c d : ClientTransaction}

theorem WellKeyed.disjoint (h : WellKeyed s) (hc : c ∈ s.clients) (hd : d ∈ s.gone) : c.id ≠ d.id := by
  have hn := h.nodup
  rw [all, List.map_append, List.nodup_append] at hn
  exact hn.2.2 _ (List.mem_map_of_mem hc) _ (List.mem_map_of_mem hd)

theorem not_active_of_done (h : c.isDone = true) : c.isActive = false := by
  by_contra ha
  rcases ClientTransaction.isDone_iff.mp h with hs | hs <;>
    simp [ClientTransaction.isActive, hs] at ha

/-- A timer leaves a transaction that is not active done. -/
theorem timerFires_done (hl : c.Launched) (h : c.isActive = false) {k : Settings} {env : Env} {req : Request}
    (t : TimerName) :
    (c.timerFires k env req t).1.isDone = true := by
  have hd : c.state = .completed ∨ c.state = .terminated := by
    have hns := hl.state
    cases hs : c.state <;> simp_all [ClientTransaction.isActive]
  have hst : (c.timerFires k env req t).1.state = _ := ClientTransaction.timerFires_state hl.state t
  have hsent : ∀ b : Bool, (if b = true then TransactionState.terminated else c.state) = .completed ∨
      (if b = true then TransactionState.terminated else c.state) = .terminated := by
    rintro (_ | _)
    · exact hd
    · exact Or.inr rfl
  rw [ClientTransaction.isDone_iff, hst]
  cases t with
  | timerA => exact hsent _
  | timerE => exact hsent _
  | timerProvisional => exact Or.inl rfl
  | _ => exact Or.inr rfl

/-- An action changes a transaction outside the vector only if it is a timer's. -/
theorem Acts.gone (hr : Reached s₀) (hg : ∀ c ∈ s₀.gone, c.isActive = false) {x : ClientTransaction × List Output}
    (ha : Acts s₀ i c x) (hd : d ∈ s₀.gone) (hid : d.id = x.1.id) : x.1.isDone = true := by
  rw [ha.id_eq] at hid
  cases ha with
  | response _ hc =>
    exact absurd hid.symm (hr.keyed.disjoint (List.mem_of_find?_eq_some (taker_eq_some.mp hc).2.2.2) hd)
  | timer _ hc harm =>
    have hmem := List.mem_of_find?_eq_some hc
    obtain rfl := hr.keyed.eq_of_id hmem (List.mem_append_right _ hd) hid.symm
    rcases hr.classified c hmem with hdorm | hl
    · simp [hdorm.not_armed] at harm
    · exact timerFires_done hl (hg c hd) _
  | info _ hc => exact absurd hid.symm (hr.keyed.disjoint (List.mem_of_find?_eq_some hc) hd)
  | prack _ hc => exact absurd hid.symm (hr.keyed.disjoint (List.mem_of_find?_eq_some hc) hd)

/-- The invariant within a step: a saved challenge ends the search after it has cleared the vector. -/
theorem Micro.parted (hr : Reached s₀) (h₀ : Parted s₀) (hm : Micro s₀ i s t)
    (h : (∀ c ∈ s.gone, c.isActive = false) ∧ (s.searching = true →
      (∃ r, i.event = .response r ∧ (savedChallenge r).isSome = true) ∨ ∀ c ∈ s.gone, c.isDone = true)) :
    (∀ c ∈ t.gone, c.isActive = false) ∧ (t.searching = true →
      (∃ r, i.event = .response r ∧ (savedChallenge r).isSome = true) ∨ ∀ c ∈ t.gone, c.isDone = true) := by
  cases hm with
  | note x _ _ _ => exact h
  | best _ => exact ⟨h.1, fun hs => by cases hs⟩
  | mark b => exact h
  | forward r _ => simpa using h
  | @act c x hs ha =>
    have hdone : ∀ e ∈ s.gone, e.id = x.1.id → x.1.isDone = true := fun e he hid =>
      ha.gone hr h₀.gone (hs.2 ▸ he) hid
    refine ⟨fun d hd => ?_, fun hsearch => (h.2 hsearch).imp_right fun hg d hd => ?_⟩
    · obtain ⟨e, he, rfl⟩ := List.mem_map.mp hd
      split
      · rename_i hid
        exact not_active_of_done (hdone e he hid)
      · exact h.1 e he
    · obtain ⟨e, he, rfl⟩ := List.mem_map.mp hd
      split
      · rename_i hid
        exact hdone e he hid
      · exact hg e he
  | remove b hb =>
    refine ⟨fun d hd => ?_, fun hsearch => ?_⟩
    · rcases List.mem_append.mp hd with hd | hd
      · exact h.1 d hd
      · have hst := (List.mem_filter.mp hd).2
        cases b <;> simp [ClientTransaction.isTerminated, ClientTransaction.isTerminatedOrNotStarted] at hst
        · simp [ClientTransaction.isActive, hst]
        · rcases hst with hst | hst <;> simp [ClientTransaction.isActive, hst]
    · cases b with
      | true =>
        rcases hb rfl with hs | hch
        · rw [removeTerminated_searching, hs] at hsearch
          cases hsearch
        · exact Or.inl hch
      | false =>
        refine (h.2 hsearch).imp_right fun hg d hd => ?_
        rcases List.mem_append.mp hd with hd | hd
        · exact hg d hd
        · have hst := (List.mem_filter.mp hd).2
          simp only [Bool.false_eq_true, if_false, ClientTransaction.isTerminated, beq_iff_eq] at hst
          exact ClientTransaction.isDone_iff.mpr (Or.inr hst)
  | start =>
    unfold ProxyCore.startRequests
    split <;> exact h
  | endSearch => exact ⟨h.1, fun hs => by cases hs⟩
  | cancelOutstanding => exact ⟨h.1, fun hs => by cases hs⟩
  | sort => exact h
  | add targets target =>
    unfold addClientTransactions
    split <;> exact h

theorem chain_parted (hr : Reached s) (h : Parted s) (hc : Chain s i s t) : (∀ c ∈ t.gone, c.isActive = false) ∧
    (t.searching = true → (∃ r, i.event = .response r ∧ (savedChallenge r).isSome = true) ∨
      ∀ c ∈ t.gone, c.isDone = true) := by
  induction hc with
  | refl => exact ⟨h.gone, fun hs => Or.inr (h.done hs)⟩
  | tail _ hm ih => exact hm.parted hr h ih

@[simp] theorem forwardBestResponse_searching {env : Env} : (s.forwardBestResponse env).searching = false := by
  unfold ProxyCore.forwardBestResponse
  dsimp only
  have done : ∀ {u : ProxyCore}, u.searching = false →
      (if u.settings.fullResponse then u.emit [.api .done] else u).searching = false := fun hu => by
    split <;> exact hu
  apply done
  split
  · rfl
  · split
    · rfl
    · rw [forwardResponse_searching]
      rfl

/-- A challenge that is saved ends the search, if it reaches the core. -/
theorem challenge_searching {r : Response} {target : String} {env : Env} (h : (savedChallenge r).isSome = true) :
    (s.followUp env r target).searching = false := by
  unfold ProxyCore.followUp
  split
  · exact forwardBestResponse_searching
  · rename_i hnone
    simp [hnone] at h

theorem step_parted (hr : Reached s) (h : Parted s) (i : Input) : Parted (s.step i) := by
  obtain ⟨hg, hd⟩ := chain_parted hr h (step_chain s i)
  refine ⟨hg, fun hs => ?_⟩
  rcases hd hs with ⟨r, he, hch⟩ | hd
  · cases hc : s.taker r with
    | some c =>
      rw [step_taken he hc, challenge_searching hch] at hs
      cases hs
    | none =>
      by_cases hm : r.method = s.request.method
      · rw [step_untaken he hm hc] at hs ⊢
        split at hs
        · rw [emit_searching, challenge_searching hch] at hs
          cases hs
        · rename_i hreg
          rw [if_neg hreg]
          exact h.done hs
      · rw [step_foreign he hm] at hs ⊢
        exact h.done hs
  · exact hd

theorem doProxy_parted {k : Settings} {env : Env} {req : Request} {destinations : List String} :
    Parted (doProxy k env req destinations) := by
  have hinit : Parted (addProxy k env req destinations) := by
    constructor <;> simp [addProxy]
  refine doProxy_induction hinit (fun h => ?_) (fun s w _ h => ⟨h.gone, h.done⟩) fun s h => ⟨h.gone, h.done⟩
  unfold ProxyCore.startRequests
  split <;> exact ⟨h.gone, h.done⟩

end

end Drachtio.Proxy
